import DataPipeline.Ingestor.Scrapers

/-! What a `BrowserScraper` loses of a page that it is asked for again and again.

The loop marks a quote as seen when it comes across it, whatever becomes of the
attempt and of the items behind the limit.
-/

set_option autoImplicit false

namespace DataPipeline.Ingestor.Scrapers.BrowserScraper

open Encoding

inductive Trial where
  | failed (extracted : Nat)
  | succeeded
  deriving DecidableEq

def Trial.rendering (page : List Quote) : Trial → Rendering
  | failed extracted => ⟨page.take extracted, false⟩
  | succeeded => ⟨page, true⟩

structure Visit where
  limit : Nat
  installed : Bool
  trial : Nat → Trial

def Visit.call (page : List Quote) (visit : Visit) : Call :=
  ⟨visit.limit, visit.installed, fun attempt => (visit.trial attempt).rendering page⟩

def urls (hash : Text → Int) (page : List Quote) : List Text := page.map fun quote => quoteUrl hash (quote.text.getD [])

def Visit.Succeeds (visit : Visit) : Prop :=
  visit.installed = true ∧ ∃ attempt < maxRetries, visit.trial attempt = .succeeded

/-- The attempts that fail before one gets through have extracted nothing. -/
def Visit.Quiet (page : List Quote) (visit : Visit) : Prop :=
  visit.installed = true → ∀ attempt < maxRetries, ∀ extracted, visit.trial attempt = .failed extracted →
    (∀ earlier < attempt, visit.trial earlier ≠ .succeeded) → extracted = 0 ∨ page = []

section Runs

variable (sha256 : Bytes → Nat) (hash : Text → Int)

def returnedUrls (seen : BloomFilter) (page : List Quote) (visits : List Visit) : List Text :=
  ((browserScraper sha256 hash).returned seen (visits.map (Visit.call page))).map ScrapedItem.url

def rememberedAfter (seen : BloomFilter) (page : List Quote) (visits : List Visit) : BloomFilter :=
  (browserScraper sha256 hash).remembered seen (visits.map (Visit.call page))

/-- Each call that succeeds returns the first quotes that no earlier call has returned,
and what the filter knows of the page after a call has been returned. -/
def LosesNothing (seen : BloomFilter) (page : List Quote) (visits : List Visit) : Prop :=
  ∀ earlier visit later, visits = earlier ++ visit :: later →
    (visit.Succeeds → (scrape sha256 hash (rememberedAfter sha256 hash seen page earlier) (visit.call page)).1 =
      some (((page.map (item hash)).filter fun listed =>
        listed.url ∉ returnedUrls sha256 hash seen page earlier).take visit.limit)) ∧
    ∀ url ∈ urls hash page,
      (BloomFilter.sieve sha256).has (rememberedAfter sha256 hash seen page (earlier ++ [visit])) url = true →
      url ∈ returnedUrls sha256 hash seen page (earlier ++ [visit])

/-- Up to the first call that succeeds no attempt extracts anything before it fails, and
that call asks for the whole page. -/
def Careful (page : List Quote) (visits : List Visit) : Prop :=
  ∀ earlier visit later, visits = earlier ++ visit :: later → (∀ other ∈ earlier, ¬ other.Succeeds) →
    visit.Quiet page ∧ (visit.Succeeds → page.length ≤ visit.limit)

end Runs

/-! ## One call -/

def marked (urls : List Text) (trial : Nat → Trial) : List Nat → List Text × Bool
  | [] => ([], false)
  | attempt :: rest =>
    match trial attempt with
    | .failed extracted => (urls.take extracted ++ (marked urls trial rest).1, (marked urls trial rest).2)
    | .succeeded => ([], true)

variable {sha256 : Bytes → Nat} {hash : Text → Int} {seen : BloomFilter} {page : List Quote} {visit : Visit}
  {visits : List Visit} {added : List Text}

theorem encodable_quoteUrl (hash : Text → Int) (text : Text) : encodable (quoteUrl hash text) = true := by
  have start : ∀ c ∈ Text.ofString (targetUrl ++ "#"), c < 0x80 := by decide
  rw [encodable, quoteUrl, encodeUtf8_ascii (IsAscii.append start (Json.hexText_ascii 6 _))]
  rfl

theorem map_url_item (hash : Text → Int) (page : List Quote) :
    (page.map (item hash)).map ScrapedItem.url = urls hash page := by
  rw [List.map_map]
  rfl

theorem filter_nothing (items : List ScrapedItem) : (items.filter fun listed => listed.url ∉ []) = items :=
  List.filter_eq_self.mpr fun _ _ => decide_eq_true List.not_mem_nil

theorem collect_page (seen : BloomFilter) (page : List Quote) :
    collect sha256 seen (page.map (item hash)) =
      (some ((BloomFilter.sieve sha256).sift ScrapedItem.url seen (page.map (item hash))).1,
        (BloomFilter.sieve sha256).addAll seen (urls hash page)) := by
  have fine : ∀ listed ∈ page.map (item hash), encodable listed.url = true := by
    intro listed member
    obtain ⟨quote, _, rfl⟩ := List.mem_map.mp member
    exact encodable_quoteUrl hash _
  have all : reached (page.map (item hash)) = page.map (item hash) := List.takeWhile_eq_self_iff.mpr fine
  rw [collect_eq, if_pos (List.all_eq_true.mpr fine), all, Sieve.sift_state, map_url_item]

theorem marked_subset (urls : List Text) (trial : Nat → Trial) (remaining : List Nat) :
    (marked urls trial remaining).1 ⊆ urls := by
  induction remaining with
  | nil => exact List.nil_subset urls
  | cons attempt rest ih =>
    rw [marked]
    split
    next => exact List.append_subset.mpr ⟨List.take_subset _ urls, ih⟩
    next => exact List.nil_subset urls

theorem marked_succeeds (urls : List Text) (trial : Nat → Trial) (remaining : List Nat) :
    (marked urls trial remaining).2 = true ↔ ∃ attempt ∈ remaining, trial attempt = .succeeded := by
  induction remaining with
  | nil => simp [marked]
  | cons attempt rest ih =>
    rw [marked, List.exists_mem_cons_iff]
    cases outcome : trial attempt with
    | failed extracted => rw [ih]; simp
    | succeeded => simp

/-- Nothing is marked if those that fail before one gets through have extracted nothing. -/
theorem marked_eq_nil_iff (urls : List Text) (trial : Nat → Trial) (start count : Nat) :
    (marked urls trial (List.range' start count)).1 = [] ↔
      ∀ attempt, start ≤ attempt → attempt < start + count → ∀ extracted, trial attempt = .failed extracted →
        (∀ earlier, start ≤ earlier → earlier < attempt → trial earlier ≠ .succeeded) →
        urls.take extracted = [] := by
  induction count generalizing start with
  | zero => exact iff_of_true rfl fun attempt low high => absurd high (by omega)
  | succ count ih =>
    rw [List.range'_succ, marked]
    cases outcome : trial start with
    | failed extracted =>
      rw [List.append_eq_nil_iff, ih]
      constructor
      · rintro ⟨first, others⟩ attempt low high extracted' failed before
        rcases Nat.eq_or_lt_of_le low with rfl | later
        · rw [outcome] at failed
          cases failed
          exact first
        · refine others attempt later (by omega) extracted' failed fun earlier low => before earlier (by omega)
      · intro all
        refine ⟨all start (Nat.le_refl _) (by omega) extracted outcome fun _ low high => absurd high (by omega), ?_⟩
        intro attempt low high extracted' failed before
        refine all attempt (by omega) (by omega) extracted' failed fun earlier low' high' => ?_
        rcases Nat.eq_or_lt_of_le low' with rfl | later
        · rw [outcome]
          exact nofun
        · exact before earlier later high'
    | succeeded =>
      refine iff_of_true rfl fun attempt low high extracted failed before => ?_
      rcases Nat.eq_or_lt_of_le low with rfl | later
      · rw [outcome] at failed
        cases failed
      · exact absurd outcome (before start (Nat.le_refl _) later)

/-- The URLs that a call marks and does not return, for they belong to attempts that fail. -/
def lost (urls : List Text) (visit : Visit) : List Text :=
  if visit.installed then (marked urls visit.trial (List.range maxRetries)).1 else []

theorem lost_subset (urls : List Text) (visit : Visit) : lost urls visit ⊆ urls := by
  unfold lost
  split
  next => exact marked_subset urls visit.trial _
  next => exact List.nil_subset urls

theorem quiet_iff (hash : Text → Int) (page : List Quote) (visit : Visit) :
    visit.Quiet page ↔ lost (urls hash page) visit = [] := by
  unfold Visit.Quiet lost
  cases visit.installed with
  | false => simp
  | true =>
    have nothing (extracted : Nat) : (urls hash page).take extracted = [] ↔ extracted = 0 ∨ page = [] := by
      rw [List.take_eq_nil_iff, urls, List.map_eq_nil_iff]
    rw [if_pos rfl, List.range_eq_range', marked_eq_nil_iff]
    simp only [Nat.zero_le, forall_const, Nat.zero_add, nothing]

instance (visit : Visit) : Decidable visit.Succeeds :=
  inferInstanceAs (Decidable (_ ∧ ∃ attempt < maxRetries, _))

/-! ## Sequences of calls -/

theorem rememberedAfter_concat (seen : BloomFilter) (page : List Quote) (visits : List Visit) (visit : Visit) :
    rememberedAfter sha256 hash seen page (visits ++ [visit]) =
      (scrape sha256 hash (rememberedAfter sha256 hash seen page visits) (visit.call page)).2 := by
  rw [rememberedAfter, List.map_append, Scraper.remembered_append]
  rfl

theorem returnedUrls_concat (seen : BloomFilter) (page : List Quote) (visits : List Visit) (visit : Visit) :
    returnedUrls sha256 hash seen page (visits ++ [visit]) = returnedUrls sha256 hash seen page visits ++
      ((scrape sha256 hash (rememberedAfter sha256 hash seen page visits) (visit.call page)).1.getD []).map
        ScrapedItem.url := by
  rw [returnedUrls, List.map_append, Scraper.returned_append, List.map_append, List.map_singleton, Scraper.returned,
    Scraper.returned, List.append_nil]
  rfl

def given (hash : Text → Int) (page : List Quote) (visits : List Visit) : List Text :=
  visits.flatMap fun visit => lost (urls hash page) visit ++ if visit.Succeeds then urls hash page else []

theorem given_concat (hash : Text → Int) (page : List Quote) (visits : List Visit) (visit : Visit) :
    given hash page (visits ++ [visit]) =
      given hash page visits ++ lost (urls hash page) visit ++ if visit.Succeeds then urls hash page else [] := by
  rw [given, List.flatMap_append, List.flatMap_singleton, List.append_assoc]
  rfl

theorem given_subset (hash : Text → Int) (page : List Quote) (visits : List Visit) :
    given hash page visits ⊆ urls hash page := by
  intro url member
  obtain ⟨visit, _, part⟩ := List.mem_flatMap.mp member
  rcases List.mem_append.mp part with marked | shown
  · exact lost_subset _ visit marked
  · split at shown
    next => exact shown
    next => cases shown

theorem given_eq_nil {earlier later : List Visit} (careful : Careful page (earlier ++ later))
    (failed : ∀ visit ∈ earlier, ¬ visit.Succeeds) : given hash page earlier = [] := by
  induction earlier using List.reverseRecOn generalizing later with
  | nil => rfl
  | append_singleton earlier visit ih =>
    have last : ¬ visit.Succeeds := failed visit (List.mem_append_right earlier (List.mem_singleton_self visit))
    have before : ∀ other ∈ earlier, ¬ other.Succeeds :=
      fun other member => failed other (List.mem_append_left [visit] member)
    rw [List.append_assoc, List.singleton_append] at careful
    have quiet := (careful earlier visit later rfl before).1
    rw [quiet_iff hash] at quiet
    rw [given_concat, ih careful before, quiet, if_neg last]
    rfl

section Precise

variable (precise : (BloomFilter.sieve sha256).ExactOn seen (urls hash page)) (distinct : (urls hash page).Nodup)

include precise distinct

theorem sift_page (within : added ⊆ urls hash page) :
    ((BloomFilter.sieve sha256).sift ScrapedItem.url ((BloomFilter.sieve sha256).addAll seen added)
      (page.map (item hash))).1 = (page.map (item hash)).filter fun listed => listed.url ∉ added := by
  have keys := map_url_item hash page
  refine (precise.sift_fst within (keys ▸ List.Subset.refl _) (keys ▸ distinct)).trans ?_
  exact List.filter_congr fun listed _ => decide_eq_decide.mpr Iff.rfl

theorem attempts_eq (within : added ⊆ urls hash page) (trial : Nat → Trial) (remaining : List Nat) :
    attempts sha256 hash (fun attempt => (trial attempt).rendering page) ((BloomFilter.sieve sha256).addAll seen added)
        remaining =
      if (marked (urls hash page) trial remaining).2 then
        (some ((page.map (item hash)).filter fun listed =>
            listed.url ∉ added ++ (marked (urls hash page) trial remaining).1),
          (BloomFilter.sieve sha256).addAll seen
            (added ++ (marked (urls hash page) trial remaining).1 ++ urls hash page))
      else (none, (BloomFilter.sieve sha256).addAll seen (added ++ (marked (urls hash page) trial remaining).1)) := by
  induction remaining generalizing added with
  | nil => simp only [attempts, marked, List.append_nil, Bool.false_eq_true, if_false]
  | cons attempt rest ih =>
    rw [attempts, marked, collect_page]
    cases outcome : trial attempt with
    | failed extracted =>
      have part : urls hash (page.take extracted) = (urls hash page).take extracted := List.map_take
      have more : added ++ (urls hash page).take extracted ⊆ urls hash page :=
        List.append_subset.mpr ⟨within, List.take_subset extracted _⟩
      have rendered : (Trial.failed extracted).rendering page = ⟨page.take extracted, false⟩ := rfl
      simp only [rendered, Bool.false_eq_true, if_false, part]
      rw [← Sieve.addAll_append, ih more, List.append_assoc, List.append_assoc, List.append_assoc]
    | succeeded =>
      have rendered : Trial.succeeded.rendering page = ⟨page, true⟩ := rfl
      simp only [rendered, if_true, List.append_nil]
      rw [sift_page precise distinct within, Sieve.addAll_append]

theorem scrape_eq (within : added ⊆ urls hash page) (visit : Visit) :
    scrape sha256 hash ((BloomFilter.sieve sha256).addAll seen added) (visit.call page) =
      if visit.Succeeds then
        (some (((page.map (item hash)).filter fun listed =>
            listed.url ∉ added ++ lost (urls hash page) visit).take visit.limit),
          (BloomFilter.sieve sha256).addAll seen (added ++ lost (urls hash page) visit ++ urls hash page))
      else (some [], (BloomFilter.sieve sha256).addAll seen (added ++ lost (urls hash page) visit)) := by
  have fetched : fetchWithBackoff sha256 hash ((BloomFilter.sieve sha256).addAll seen added) (visit.call page) =
      if visit.Succeeds then
        (some ((page.map (item hash)).filter fun listed => listed.url ∉ added ++ lost (urls hash page) visit),
          (BloomFilter.sieve sha256).addAll seen (added ++ lost (urls hash page) visit ++ urls hash page))
      else (none, (BloomFilter.sieve sha256).addAll seen (added ++ lost (urls hash page) visit)) := by
    by_cases installed : visit.installed = true
    · have through : (marked (urls hash page) visit.trial (List.range maxRetries)).2 = true ↔ visit.Succeeds := by
        rw [marked_succeeds, Visit.Succeeds, installed, eq_self, true_and]
        simp only [List.mem_range]
      rw [fetchWithBackoff, Visit.call, if_pos installed, attempts_eq precise distinct within, lost, if_pos installed]
      simp only [through]
    · rw [if_neg fun succeeds => installed succeeds.1, lost, if_neg installed, List.append_nil]
      exact if_neg installed
  rw [scrape, fetched]
  by_cases succeeds : visit.Succeeds
  · rw [if_pos succeeds, if_pos succeeds]
    rfl
  · rw [if_neg succeeds, if_neg succeeds]

theorem rememberedAfter_eq (visits : List Visit) :
    rememberedAfter sha256 hash seen page visits = (BloomFilter.sieve sha256).addAll seen (given hash page visits) := by
  induction visits using List.reverseRecOn with
  | nil => rfl
  | append_singleton visits visit ih =>
    rw [rememberedAfter_concat, ih, scrape_eq precise distinct (given_subset hash page visits), given_concat]
    by_cases succeeds : visit.Succeeds
    · rw [if_pos succeeds, if_pos succeeds]
    · rw [if_neg succeeds, if_neg succeeds, List.append_nil]

theorem has_iff (visits : List Visit) {url : Text} (member : url ∈ urls hash page) :
    (BloomFilter.sieve sha256).has (rememberedAfter sha256 hash seen page visits) url = true ↔
      url ∈ given hash page visits := by
  rw [rememberedAfter_eq precise distinct]
  exact precise.has_iff (given_subset hash page visits) member

theorem answer_eq (visits : List Visit) (visit : Visit) :
    (scrape sha256 hash (rememberedAfter sha256 hash seen page visits) (visit.call page)).1 =
      if visit.Succeeds then
        some (((page.map (item hash)).filter fun listed =>
          listed.url ∉ given hash page visits ++ lost (urls hash page) visit).take visit.limit)
      else some [] := by
  rw [rememberedAfter_eq precise distinct, scrape_eq precise distinct (given_subset hash page visits)]
  by_cases succeeds : visit.Succeeds
  · rw [if_pos succeeds, if_pos succeeds]
  · rw [if_neg succeeds, if_neg succeeds]

theorem returnedUrls_of_failed (visits : List Visit) (failed : ∀ visit ∈ visits, ¬ visit.Succeeds) :
    returnedUrls sha256 hash seen page visits = [] := by
  induction visits using List.reverseRecOn with
  | nil => rfl
  | append_singleton visits visit ih =>
    have last : ¬ visit.Succeeds := failed visit (List.mem_append_right visits (List.mem_singleton_self visit))
    rw [returnedUrls_concat, answer_eq precise distinct, if_neg last,
      ih fun other member => failed other (List.mem_append_left [visit] member)]
    rfl

/-- What a call returns of a page that was never returned from and nothing of which was lost. -/
theorem returnedUrls_first {visits : List Visit} (fresh : given hash page visits = [])
    (failed : ∀ visit ∈ visits, ¬ visit.Succeeds) (quiet : lost (urls hash page) visit = [])
    (succeeds : visit.Succeeds) :
    returnedUrls sha256 hash seen page (visits ++ [visit]) = (urls hash page).take visit.limit := by
  rw [returnedUrls_concat, returnedUrls_of_failed precise distinct visits failed, answer_eq precise distinct,
    if_pos succeeds, fresh, quiet, List.append_nil, List.nil_append, Option.getD_some, List.map_take, filter_nothing,
    map_url_item]

theorem all_returned {earlier later : List Visit} (careful : Careful page (earlier ++ later))
    (some_ : ∃ visit ∈ earlier, visit.Succeeds) : urls hash page ⊆ returnedUrls sha256 hash seen page earlier := by
  induction earlier using List.reverseRecOn generalizing later with
  | nil =>
    obtain ⟨visit, member, _⟩ := some_
    cases member
  | append_singleton earlier visit ih =>
    rw [List.append_assoc, List.singleton_append] at careful
    by_cases before : ∃ other ∈ earlier, other.Succeeds
    · rw [returnedUrls_concat]
      exact List.subset_append_of_subset_left _ (ih careful before)
    · have failed : ∀ other ∈ earlier, ¬ other.Succeeds := fun other member succeeds => before ⟨other, member, succeeds⟩
      obtain ⟨other, member, succeeds⟩ := some_
      have last : other = visit := by
        rcases List.mem_append.mp member with early | final
        · exact absurd succeeds (failed other early)
        · exact List.mem_singleton.mp final
      obtain ⟨quiet, enough⟩ := careful earlier visit later rfl failed
      have whole : (urls hash page).length ≤ visit.limit := by
        rw [urls, List.length_map]
        exact enough (last ▸ succeeds)
      rw [returnedUrls_first precise distinct (given_eq_nil careful failed) failed
        ((quiet_iff hash page visit).mp quiet) (last ▸ succeeds), List.take_of_length_le whole]
      exact List.Subset.refl _

omit precise distinct in
theorem given_of_success {earlier : List Visit} (some_ : ∃ visit ∈ earlier, visit.Succeeds) :
    urls hash page ⊆ given hash page earlier := by
  obtain ⟨visit, member, succeeds⟩ := some_
  intro url listed
  refine List.mem_flatMap.mpr ⟨visit, member, List.mem_append_right _ ?_⟩
  rw [if_pos succeeds]
  exact listed

theorem losesNothing_of_careful (careful : Careful page visits) : LosesNothing sha256 hash seen page visits := by
  rintro earlier visit later rfl
  have split : earlier ++ visit :: later = (earlier ++ [visit]) ++ later := by
    rw [List.append_assoc, List.singleton_append]
  by_cases before : ∃ other ∈ earlier, other.Succeeds
  · -- The page was returned at once, and nothing is new to the filter or to the callers.
    have returned := all_returned precise distinct careful before
    have known := @given_of_success hash page earlier before
    refine ⟨fun succeeds => ?_, fun url listed _ => ?_⟩
    · rw [answer_eq precise distinct, if_pos succeeds]
      refine congrArg (fun kept => some (List.take visit.limit kept)) (List.filter_congr fun listed member => ?_)
      have among : listed.url ∈ urls hash page := map_url_item hash page ▸ List.mem_map_of_mem member
      rw [decide_eq_false (not_not_intro (List.mem_append_left _ (known among))),
        decide_eq_false (not_not_intro (returned among))]
    · rw [returnedUrls_concat]
      exact List.mem_append_left _ (returned listed)
  · have failed : ∀ other ∈ earlier, ¬ other.Succeeds := fun other member succeeds => before ⟨other, member, succeeds⟩
    have nothing : given hash page earlier = [] := given_eq_nil careful failed
    have quiet := (quiet_iff hash page visit).mp (careful earlier visit later rfl failed).1
    refine ⟨fun succeeds => ?_, fun url listed has => ?_⟩
    · rw [answer_eq precise distinct, if_pos succeeds, nothing, quiet,
        returnedUrls_of_failed precise distinct earlier failed, List.append_nil]
    · by_cases succeeds : visit.Succeeds
      · have both : ∃ other ∈ earlier ++ [visit], other.Succeeds :=
          ⟨visit, List.mem_append_right earlier (List.mem_singleton_self visit), succeeds⟩
        exact all_returned precise distinct (split ▸ careful) both listed
      · rw [has_iff precise distinct _ listed, given_concat, nothing, quiet, if_neg succeeds] at has
        cases has

theorem careful_of_losesNothing (nothing : LosesNothing sha256 hash seen page visits) : Careful page visits := by
  rintro earlier visit later split failed
  obtain ⟨answer, known⟩ := nothing earlier visit later split
  have none := returnedUrls_of_failed precise distinct earlier failed
  have quiet : lost (urls hash page) visit = [] := by
    refine List.eq_nil_iff_forall_not_mem.mpr fun url marked => ?_
    have listed := lost_subset _ visit marked
    have has : url ∈ given hash page (earlier ++ [visit]) := by
      rw [given_concat]
      exact List.mem_append_left _ (List.mem_append_right _ marked)
    -- It is marked, but whatever the call returns leaves it out.
    have returned := known url listed ((has_iff precise distinct _ listed).mpr has)
    rw [returnedUrls_concat, none, answer_eq precise distinct, List.nil_append] at returned
    split at returned
    next =>
      obtain ⟨kept, member, rfl⟩ := List.mem_map.mp returned
      have fresh := of_decide_eq_true (List.mem_filter.mp (List.mem_of_mem_take member)).2
      exact fresh (List.mem_append_right _ marked)
    next => cases returned
  refine ⟨(quiet_iff hash page visit).mpr quiet, fun succeeds => ?_⟩
  have all : urls hash page ⊆ (urls hash page).take visit.limit := by
    intro url listed
    have has : url ∈ given hash page (earlier ++ [visit]) := by
      rw [given_concat, if_pos succeeds]
      exact List.mem_append_right _ listed
    have returned := known url listed ((has_iff precise distinct _ listed).mpr has)
    rw [returnedUrls_concat, none, answer succeeds, none, List.nil_append, Option.getD_some, List.map_take,
      filter_nothing, map_url_item] at returned
    exact returned
  have size := (distinct.subperm all).length_le
  rw [List.length_take, urls, List.length_map] at size
  omega

/-- Nothing of the page is lost in a sequence of calls exactly if they are careful with it. -/
theorem losesNothing_iff (visits : List Visit) : LosesNothing sha256 hash seen page visits ↔ Careful page visits :=
  ⟨careful_of_losesNothing precise distinct, losesNothing_of_careful precise distinct⟩

end Precise

/-! ## A page of two quotes -/

def digestOfQuotes (bytes : Bytes) : Nat :=
  let digests := match bytes.getLast? with
    | some 49 => [0x12d3699ae3ebbd3e8141f328562c9966c6895df2168a56fb3df410d77e1d2c0e,
        0xde8618615b70bbfc1677b7a42652efa637dbeb853b36f89233589beeb6d981ec,
        0x0a1b9e51bcc8d42489e367d7211bd9fc8cae107a99639c331962d643194f3ca5,
        0x3071008e0a31ae90915868024f21bf8409097874b2fbaf2de89e042ddca198c7,
        0x26869b4b42aa06d7ece7df8a589ff1f463e2d02bd9315660658ba7560de92575,
        0x04d71bf0c74e486c79f1080a2ad8d94fbea619e470380748b2847cb6e4f9e38c]
    | some 50 => [0xaa928631dcb0488afbe728bd0874bf68ade7e3b381359fb1c822a53a0195b582,
        0xf537ccba26c63a547c111206f2eeb8116b72fff5a71579866c69283aefe54f09,
        0x41e54b7943ec2c1bc1336e3b5987fb535ac7516a3c1b5ceb38b8c0789478d44c,
        0x2559307da51c8b507e696cc53dd300f1c5cb87a331d4204825924f45e3b4b211,
        0x305d2aeba37bbb911108db0140ab84a5c19659747e2b9ae0023924d67f16e74b,
        0xcce16b47c7ac4bb6879ed434d71a40279feab95fe6c9769090d4f3856f67a0f9]
    | _ => []
  digests.getD ((bytes.headD 48).toNat - 48) 0

def hashOfQuotes (text : Text) : Int := text.length

def newFilter : BloomFilter := BloomFilter.init 4792 6

def twoQuotes : List Quote := [⟨some [97], some [120]⟩, ⟨some [97, 98], some [121]⟩]

theorem precise_twoQuotes : (BloomFilter.sieve digestOfQuotes).ExactOn newFilter (urls hashOfQuotes twoQuotes) := by
  refine Sieve.exactOn_pair ?_ ?_ ?_ ?_ <;> decide +kernel

theorem distinct_twoQuotes : (urls hashOfQuotes twoQuotes).Nodup := by decide +kernel

def promptly (limit : Nat) : Visit := ⟨limit, true, fun _ => .succeeded⟩

/-- Both quotes are extracted, then the browser does not close. -/
def secondTry (limit : Nat) : Visit := ⟨limit, true, fun attempt => if attempt = 0 then .failed 2 else .succeeded⟩

def slowStart (limit : Nat) : Visit := ⟨limit, true, fun attempt => if attempt = 0 then .failed 0 else .succeeded⟩

/-- A first attempt that fails at once loses nothing, and after a call for all quotes
neither does one that fails midway. -/
theorem careful_with_two :
    LosesNothing digestOfQuotes hashOfQuotes newFilter twoQuotes [slowStart 20, secondTry 1] := by
  refine (losesNothing_iff precise_twoQuotes distinct_twoQuotes _).mpr fun earlier visit later split failed => ?_
  rcases List.cons_eq_append_iff.mp split with ⟨rfl, same⟩ | ⟨rest, rfl, _⟩
  · cases same
    refine ⟨fun _ attempt _ extracted outcome _ => ?_, fun _ => by decide⟩
    unfold slowStart at outcome
    simp only at outcome
    split at outcome
    next =>
      cases outcome
      exact .inl rfl
    next => cases outcome
  · exact absurd ⟨rfl, 1, by decide, rfl⟩ (failed (slowStart 20) List.mem_cons_self)

/-- The first of two quotes is returned, and the second never. After a retry neither is. -/
theorem two_quotes_lost :
    (¬ LosesNothing digestOfQuotes hashOfQuotes newFilter twoQuotes [promptly 1, promptly 1]) ∧
    ¬ LosesNothing digestOfQuotes hashOfQuotes newFilter twoQuotes [secondTry 20] := by
  refine ⟨fun nothing => ?_, fun nothing => ?_⟩
  · have careful := careful_of_losesNothing precise_twoQuotes distinct_twoQuotes nothing
    have enough := (careful [] (promptly 1) [promptly 1] rfl nofun).2 ⟨rfl, 0, by decide, rfl⟩
    exact absurd enough (by decide)
  · have careful := careful_of_losesNothing precise_twoQuotes distinct_twoQuotes nothing
    have quiet := (careful [] (secondTry 20) [] rfl nofun).1 rfl 0 (by decide) 2 rfl nofun
    exact absurd quiet (by decide)

end DataPipeline.Ingestor.Scrapers.BrowserScraper
