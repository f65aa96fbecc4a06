import DataPipeline.Ingestor.BloomFilter
import DataPipeline.Library.Json
import Mathlib.Data.List.TakeWhile

/-! The three scrapers of `ingestor/scrapers`, called again and again on one instance.

What a page or a browser shows is given as what the selectors find in it, and
waiting between attempts is left out. A call without a result raised a
`UnicodeEncodeError`, the only error a list of posts with ids can lead to.
-/

set_option autoImplicit false

namespace DataPipeline.Ingestor.Scrapers

open Encoding

structure ScrapedItem where
  url : Text
  title : Json
  content : Json
  source : String

structure Scraper (Call : Type) where
  limit : Call → Nat
  scrape : BloomFilter → Call → Option (List ScrapedItem) × BloomFilter

def maxRetries : Nat := 3

/-- The first attempt that does not end in an `httpx.HTTPError`. -/
def fetchWithBackoff {Body : Type} (attempts : Nat → Option Body) : Option Body :=
  (List.range maxRetries).findSome? attempts

variable (sha256 : Bytes → Nat)

/-- The loop that skips the items whose URL has been seen. -/
def collect : BloomFilter → List ScrapedItem → Option (List ScrapedItem) × BloomFilter
  | seen, [] => (some [], seen)
  | seen, item :: rest =>
    match seen.contains sha256 item.url with
    | none => (none, seen)
    | some true => collect seen rest
    | some false =>
      match seen.add sha256 item.url with
      | none => (none, seen)
      | some marked =>
        let (items, after) := collect marked rest
        (items.map (item :: ·), after)

/-! ## JSONPlaceholder -/

/-- A post object, which has an id whatever else it has. -/
structure Post where
  entries : List (Text × Json)
  id : Json
  has_id : Json.get entries "id" = some id

namespace HttpScraper

def baseUrl : String := "https://jsonplaceholder.typicode.com"

def postsPath : String := "/posts"

/-- `upstream` answers a request with some `_limit` at each attempt. -/
structure Call where
  limit : Nat
  upstream : Nat → Nat → Option (List Post)

def Call.posts (call : Call) : Option (List Post) := fetchWithBackoff (call.upstream call.limit)

/-- `format` writes a value as an f-string does. -/
def postUrl (format : Json → Text) (post : Post) : Text :=
  Text.ofString (baseUrl ++ postsPath ++ "/") ++ format post.id

def item (format : Json → Text) (post : Post) : ScrapedItem where
  url := postUrl format post
  title := (Json.get post.entries "title").getD (.str [])
  content := (Json.get post.entries "body").getD (.str [])
  source := "jsonplaceholder"

def scrape (format : Json → Text) (seen : BloomFilter) (call : Call) :
    Option (List ScrapedItem) × BloomFilter :=
  match call.posts with
  | none => (some [], seen)
  | some posts => collect sha256 seen (posts.map (item format))

end HttpScraper

def httpScraper (format : Json → Text) : Scraper HttpScraper.Call :=
  ⟨HttpScraper.Call.limit, HttpScraper.scrape sha256 format⟩

/-! ## Hacker News -/

/-- The first `span.titleline > a` of a row. -/
structure TitleCell where
  text : Text
  href : Option Text

/-- A `tr.athing`, with its title if it has one. -/
structure StoryRow where
  titleCell : Option TitleCell

namespace HtmlScraper

def hnUrl : String := "https://news.ycombinator.com"

structure Call where
  limit : Nat
  upstream : Nat → Option Text

def storyUrl (cell : TitleCell) : Text :=
  let href := cell.href.getD []
  if (Text.ofString "http").isPrefixOf href then href else Text.ofString (hnUrl ++ "/") ++ href

def item (row : StoryRow) : Option ScrapedItem :=
  row.titleCell.map fun cell => {
    url := storyUrl cell
    title := .str cell.text
    content := .str []
    source := "hn" }

/-- `select` finds the story rows of a page. -/
def scrape (select : Text → List StoryRow) (seen : BloomFilter) (call : Call) :
    Option (List ScrapedItem) × BloomFilter :=
  match fetchWithBackoff call.upstream with
  | none => (some [], seen)
  | some html => collect sha256 seen (((select html).take call.limit).filterMap item)

end HtmlScraper

def htmlScraper (select : Text → List StoryRow) : Scraper HtmlScraper.Call :=
  ⟨HtmlScraper.Call.limit, HtmlScraper.scrape sha256 select⟩

/-! ## Quotes -/

/-- The inner texts of a `.quote` element's `.text` and `.author`. -/
structure Quote where
  text : Option Text
  author : Option Text

/-- The quotes that a browser gets to render, and whether it closes after them
or something raises instead. -/
structure Rendering where
  quotes : List Quote
  closes : Bool

namespace BrowserScraper

def targetUrl : String := "https://quotes.toscrape.com/js/"

/-- Nothing is rendered where Playwright is not installed. -/
structure Call where
  limit : Nat
  installed : Bool
  upstream : Nat → Rendering

/-- `hash` is the hash that the interpreter gives a string. -/
def quoteUrl (hash : Text → Int) (text : Text) : Text :=
  Text.ofString (targetUrl ++ "#") ++ Json.hexText 6 (hash text % 0x1000000).toNat

def item (hash : Text → Int) (quote : Quote) : ScrapedItem where
  url := quoteUrl hash (quote.text.getD [])
  title := .str (quote.author.getD [])
  content := .str (quote.text.getD [])
  source := "playwright"

/-- What an attempt that fails has seen stays seen. -/
def attempts (hash : Text → Int) (upstream : Nat → Rendering) :
    BloomFilter → List Nat → Option (List ScrapedItem) × BloomFilter
  | seen, [] => (none, seen)
  | seen, attempt :: rest =>
    match collect sha256 seen ((upstream attempt).quotes.map (item hash)) with
    | (none, after) => attempts hash upstream after rest
    | (some items, after) =>
      if (upstream attempt).closes then (some items, after) else attempts hash upstream after rest

def fetchWithBackoff (hash : Text → Int) (seen : BloomFilter) (call : Call) :
    Option (List ScrapedItem) × BloomFilter :=
  if call.installed then attempts sha256 hash call.upstream seen (List.range maxRetries) else (none, seen)

def scrape (hash : Text → Int) (seen : BloomFilter) (call : Call) :
    Option (List ScrapedItem) × BloomFilter :=
  match fetchWithBackoff sha256 hash seen call with
  | (none, after) => (some [], after)
  | (some items, after) => (some (items.take call.limit), after)

end BrowserScraper

def browserScraper (hash : Text → Int) : Scraper BrowserScraper.Call :=
  ⟨BrowserScraper.Call.limit, BrowserScraper.scrape sha256 hash⟩

/-! ## Calls on one instance -/

namespace Scraper

variable {Call : Type}

def remembered (scraper : Scraper Call) (seen : BloomFilter) (calls : List Call) : BloomFilter :=
  calls.foldl (fun seen call => (scraper.scrape seen call).2) seen

def returned (scraper : Scraper Call) : BloomFilter → List Call → List ScrapedItem
  | _, [] => []
  | seen, call :: rest =>
    (scraper.scrape seen call).1.getD [] ++ scraper.returned (scraper.scrape seen call).2 rest

/-- No call returns more items than it asks for. -/
def WithinLimits (scraper : Scraper Call) (seen : BloomFilter) (calls : List Call) : Prop :=
  ∀ earlier call later, calls = earlier ++ call :: later → ∀ items,
    (scraper.scrape (scraper.remembered seen earlier) call).1 = some items →
    items.length ≤ scraper.limit call

/-- Nor is a URL returned twice. -/
structure Respects (scraper : Scraper Call) (seen : BloomFilter) (calls : List Call) : Prop where
  within : scraper.WithinLimits seen calls
  distinct : ((scraper.returned seen calls).map ScrapedItem.url).Nodup

end Scraper

/-! ## The loop as a sieve -/

def encodable (url : Text) : Bool := (encodeUtf8 url).isSome

def reached (items : List ScrapedItem) : List ScrapedItem := items.takeWhile fun item => encodable item.url

variable {sha256} {seen : BloomFilter}

theorem contains_of_encodable {url : Text} (fine : encodable url = true) :
    seen.contains sha256 url = some ((BloomFilter.sieve sha256).has seen url) ∧
      seen.add sha256 url = some ((BloomFilter.sieve sha256).add seen url) := by
  rw [encodable, ← BloomFilter.isSome_positions sha256 seen url] at fine
  obtain ⟨places, computed⟩ := Option.isSome_iff_exists.mp fine
  constructor
  · rw [BloomFilter.contains_eq sha256 computed]
    simp only [BloomFilter.sieve, BloomFilter.contains_eq sha256 computed, Option.getD_some]
  · rw [BloomFilter.add_eq sha256 computed]
    simp only [BloomFilter.sieve, BloomFilter.add_eq sha256 computed, Option.getD_some]

theorem contains_of_not_encodable {url : Text} (odd : encodable url = false) :
    seen.contains sha256 url = none := by
  rw [encodable, ← BloomFilter.isSome_positions sha256 seen url, Option.isSome_eq_false_iff,
    Option.isNone_iff_eq_none] at odd
  rw [BloomFilter.contains, odd, Option.map_none]

/-- A loop that raises leaves marked what it went through. -/
theorem collect_eq (items : List ScrapedItem) :
    collect sha256 seen items =
      (if items.all fun item => encodable item.url then
          some ((BloomFilter.sieve sha256).sift ScrapedItem.url seen (reached items)).1 else none,
        ((BloomFilter.sieve sha256).sift ScrapedItem.url seen (reached items)).2) := by
  induction items generalizing seen with
  | nil => rfl
  | cons item rest ih =>
    rw [collect, List.all_cons, reached, List.takeWhile_cons]
    cases fine : encodable item.url with
    | false =>
      rw [contains_of_not_encodable fine]
      rfl
    | true =>
      obtain ⟨known, marked⟩ := @contains_of_encodable sha256 seen _ fine
      rw [known, marked, if_pos rfl, Bool.true_and, ← reached]
      cases found : (BloomFilter.sieve sha256).has seen item.url with
      | true =>
        rw [Sieve.sift_known found]
        exact ih
      | false =>
        rw [Sieve.sift_fresh found]
        simp only [ih]
        split <;> rfl

/-- What a call returns went through the filter, and the filter knows all that did. -/
def Sifts (sha256 : Bytes → Nat) (seen : BloomFilter) (outcome : Option (List ScrapedItem) × BloomFilter) :
    Prop :=
  ∃ candidates, (outcome.1.getD []).Sublist
      ((BloomFilter.sieve sha256).sift ScrapedItem.url seen candidates).1 ∧
    outcome.2 = ((BloomFilter.sieve sha256).sift ScrapedItem.url seen candidates).2

theorem Sifts.nothing (seen : BloomFilter) (answer : Option (List ScrapedItem))
    (empty : answer.getD [] = []) : Sifts sha256 seen (answer, seen) :=
  ⟨[], by rw [empty]; exact List.nil_sublist _, rfl⟩

theorem Sifts.trans {first last : Option (List ScrapedItem) × BloomFilter}
    (before : Sifts sha256 seen first) (after : Sifts sha256 first.2 last) : Sifts sha256 seen last := by
  obtain ⟨early, -, middle⟩ := before
  obtain ⟨late, kept, final⟩ := after
  refine ⟨early ++ late, ?_, ?_⟩
  · rw [Sieve.sift_append, ← middle]
    exact kept.trans (List.sublist_append_right _ _)
  · rw [Sieve.sift_append, ← middle, final]

theorem collect_sifts (items : List ScrapedItem) : Sifts sha256 seen (collect sha256 seen items) := by
  refine ⟨reached items, ?_, ?_⟩
  · rw [collect_eq]
    split
    next => exact List.Sublist.refl _
    next => exact List.nil_sublist _
  · rw [collect_eq]

namespace Scraper

variable {Call : Type} {scraper : Scraper Call}

theorem remembered_append (seen : BloomFilter) (first rest : List Call) :
    scraper.remembered seen (first ++ rest) = scraper.remembered (scraper.remembered seen first) rest :=
  List.foldl_append

theorem returned_append (seen : BloomFilter) (first rest : List Call) :
    scraper.returned seen (first ++ rest) =
      scraper.returned seen first ++ scraper.returned (scraper.remembered seen first) rest := by
  induction first generalizing seen with
  | nil => rfl
  | cons call first ih => rw [List.cons_append, returned, ih, returned, List.append_assoc]; rfl

theorem distinct_of_sifts (sifts : ∀ seen call, Sifts sha256 seen (scraper.scrape seen call))
    (seen : BloomFilter) (calls : List Call) :
    ((scraper.returned seen calls).map ScrapedItem.url).Nodup := by
  have through : ∃ candidates, (scraper.returned seen calls).Sublist
      ((BloomFilter.sieve sha256).sift ScrapedItem.url seen candidates).1 := by
    induction calls generalizing seen with
    | nil => exact ⟨[], List.Sublist.refl _⟩
    | cons call rest ih =>
      obtain ⟨early, kept, middle⟩ := sifts seen call
      obtain ⟨late, keptLater⟩ := ih (scraper.scrape seen call).2
      refine ⟨early ++ late, ?_⟩
      rw [Sieve.sift_append, ← middle]
      exact kept.append keptLater
  obtain ⟨candidates, kept⟩ := through
  exact List.Sublist.nodup (kept.map _) (Sieve.sift_nodup candidates)

end Scraper

/-! ## The three classes -/

theorem HttpScraper.scrape_sifts (format : Json → Text) (seen : BloomFilter) (call : Call) :
    Sifts sha256 seen (scrape sha256 format seen call) := by
  unfold scrape
  split
  next => exact Sifts.nothing seen (some []) rfl
  next => exact collect_sifts _

namespace HtmlScraper

variable (select : Text → List StoryRow)

theorem scrape_sifts (seen : BloomFilter) (call : Call) :
    Sifts sha256 seen (scrape sha256 select seen call) := by
  unfold scrape
  split
  next => exact Sifts.nothing seen (some []) rfl
  next => exact collect_sifts _

theorem length_scrape {call : Call} {items : List ScrapedItem}
    (answer : (scrape sha256 select seen call).1 = some items) : items.length ≤ call.limit := by
  unfold scrape at answer
  split at answer
  next =>
    rw [← Option.some.inj answer]
    exact Nat.zero_le _
  next html fetched =>
    have rows : (((select html).take call.limit).filterMap item).length ≤ call.limit :=
      (List.length_filterMap_le _ _).trans (List.length_take_le _ _)
    rw [collect_eq, Option.ite_none_right_eq_some] at answer
    rw [← Option.some.inj answer.2]
    calc
      _ ≤ (reached (((select html).take call.limit).filterMap item)).length :=
        (Sieve.sift_sublist _).length_le
      _ ≤ (((select html).take call.limit).filterMap item).length := (List.takeWhile_sublist _).length_le
      _ ≤ call.limit := rows

end HtmlScraper

namespace BrowserScraper

variable (hash : Text → Int)

/-- Whatever an attempt loses by failing, it does not return. -/
theorem attempts_sifts (upstream : Nat → Rendering) (seen : BloomFilter) (remaining : List Nat) :
    Sifts sha256 seen (attempts sha256 hash upstream seen remaining) := by
  induction remaining generalizing seen with
  | nil => exact Sifts.nothing seen none rfl
  | cons attempt rest ih =>
    have first := @collect_sifts sha256 seen ((upstream attempt).quotes.map (item hash))
    rw [attempts]
    split
    next after outcome =>
      rw [outcome] at first
      exact first.trans (ih after)
    next items after outcome =>
      rw [outcome] at first
      split
      next => exact first
      next => exact first.trans (ih after)

theorem scrape_sifts (seen : BloomFilter) (call : Call) :
    Sifts sha256 seen (scrape sha256 hash seen call) := by
  have fetched : Sifts sha256 seen (fetchWithBackoff sha256 hash seen call) := by
    unfold fetchWithBackoff
    split
    next => exact attempts_sifts hash call.upstream seen _
    next => exact Sifts.nothing seen none rfl
  unfold scrape
  split
  next after outcome =>
    rw [outcome] at fetched
    obtain ⟨candidates, kept, after⟩ := fetched
    exact ⟨candidates, kept, after⟩
  next items after outcome =>
    rw [outcome] at fetched
    obtain ⟨candidates, kept, after⟩ := fetched
    exact ⟨candidates, (List.take_sublist _ _).trans kept, after⟩

theorem length_scrape {call : Call} {items : List ScrapedItem}
    (answer : (scrape sha256 hash seen call).1 = some items) : items.length ≤ call.limit := by
  unfold scrape at answer
  split at answer
  next =>
    rw [← Option.some.inj answer]
    exact Nat.zero_le _
  next =>
    rw [← Option.some.inj answer]
    exact List.length_take_le _ _

end BrowserScraper

/-! ## What a server that ignores the limit does -/

namespace HttpScraper

variable (format : Json → Text)

def urls (call : Call) : List Text := (call.posts.getD []).map (postUrl format)

def reachedUrls (call : Call) : List Text := (urls format call).takeWhile encodable

def informed (sha256 : Bytes → Nat) (seen : BloomFilter) (earlier : List Call) : BloomFilter :=
  (BloomFilter.sieve sha256).addAll seen (earlier.flatMap (reachedUrls format))

/-- No response has more posts than its call asks for that the filter, informed of
the responses before it, still lacks. A response with a URL that raises returns nothing. -/
def FitsLimits (sha256 : Bytes → Nat) (seen : BloomFilter) (calls : List Call) : Prop :=
  ∀ earlier call later, calls = earlier ++ call :: later → (urls format call).all encodable = true →
    (BloomFilter.sieve sha256).newcomers (informed format sha256 seen earlier) (urls format call) ≤ call.limit

theorem map_url_reached (posts : List Post) :
    (reached (posts.map (item format))).map ScrapedItem.url =
      (posts.map (postUrl format)).takeWhile encodable := by
  rw [reached, List.takeWhile_map, List.takeWhile_map, List.map_map]
  rfl

theorem scrape_state (seen : BloomFilter) (call : Call) :
    (scrape sha256 format seen call).2 =
      (BloomFilter.sieve sha256).addAll seen (reachedUrls format call) := by
  rw [scrape, reachedUrls, urls]
  cases call.posts with
  | none => rfl
  | some posts =>
    rw [Option.getD_some, ← map_url_reached, ← Sieve.sift_state]
    simp only [collect_eq]

theorem remembered_eq (seen : BloomFilter) (calls : List Call) :
    (httpScraper sha256 format).remembered seen calls = informed format sha256 seen calls := by
  induction calls generalizing seen with
  | nil => rfl
  | cons call rest ih =>
    have state : ((httpScraper sha256 format).scrape seen call).2 =
        (BloomFilter.sieve sha256).addAll seen (reachedUrls format call) := scrape_state format seen call
    rw [Scraper.remembered, List.foldl_cons, ← Scraper.remembered, ih, state, informed, informed,
      List.flatMap_cons, Sieve.addAll, Sieve.addAll, Sieve.addAll, List.foldl_append]

/-- A call returns as many items as its response has URLs that the filter lacks. -/
theorem within_iff (seen : BloomFilter) (call : Call) :
    (∀ items, (scrape sha256 format seen call).1 = some items → items.length ≤ call.limit) ↔
      ((urls format call).all encodable = true →
        (BloomFilter.sieve sha256).newcomers seen (urls format call) ≤ call.limit) := by
  rw [scrape, urls]
  cases call.posts with
  | none => simp [Sieve.newcomers]
  | some posts =>
    have same : (posts.map (item format)).all (fun item => encodable item.url) =
        (posts.map (postUrl format)).all encodable := by
      rw [List.all_map, List.all_map]
      rfl
    have count (fine : (posts.map (postUrl format)).all encodable = true) :
        ((BloomFilter.sieve sha256).sift ScrapedItem.url seen (reached (posts.map (item format)))).1.length =
          (BloomFilter.sieve sha256).newcomers seen (posts.map (postUrl format)) := by
      rw [Sieve.length_sift, map_url_reached, List.takeWhile_eq_self_iff.mpr (List.all_eq_true.mp fine)]
    simp only [Option.getD_some, collect_eq, same, Option.ite_none_right_eq_some, Option.some.injEq]
    constructor
    · intro within fine
      rw [← count fine]
      exact within _ ⟨fine, rfl⟩
    · rintro fits items ⟨fine, rfl⟩
      rw [count fine]
      exact fits fine

theorem withinLimits_iff (seen : BloomFilter) (calls : List Call) :
    (httpScraper sha256 format).WithinLimits seen calls ↔ FitsLimits format sha256 seen calls := by
  unfold Scraper.WithinLimits FitsLimits
  constructor
  · intro within earlier call later split
    have bound := within earlier call later split
    rw [remembered_eq] at bound
    exact (within_iff format _ call).mp bound
  · intro fits earlier call later split
    rw [remembered_eq]
    exact (within_iff format _ call).mpr (fits earlier call later split)

theorem fitsLimits_of_honoured {seen : BloomFilter} {calls : List Call}
    (honoured : ∀ call ∈ calls, (call.posts.getD []).length ≤ call.limit) :
    FitsLimits format sha256 seen calls := by
  intro earlier call later split _
  have size : (BloomFilter.sieve sha256).newcomers (informed format sha256 seen earlier)
      (urls format call) ≤ (urls format call).length := Sieve.newcomers_le _
  rw [urls, List.length_map] at size
  exact size.trans (honoured call (by rw [split]; simp))

end HttpScraper

/-- Two of the classes cut what they extract down to the limit. The third leaves
that to the server, and keeps to the limit exactly when the responses do. -/
theorem respects_iff (sha256 : Bytes → Nat) (format : Json → Text) (select : Text → List StoryRow)
    (hash : Text → Int) (seen : BloomFilter) :
    (∀ calls, (htmlScraper sha256 select).Respects seen calls) ∧
      (∀ calls, (browserScraper sha256 hash).Respects seen calls) ∧
      ∀ calls, (httpScraper sha256 format).Respects seen calls ↔
        HttpScraper.FitsLimits format sha256 seen calls := by
  refine ⟨fun calls => ⟨?_, ?_⟩, fun calls => ⟨?_, ?_⟩, fun calls => ⟨?_, fun fits => ⟨?_, ?_⟩⟩⟩
  · exact fun earlier call later _ items answer => HtmlScraper.length_scrape select answer
  · exact Scraper.distinct_of_sifts (HtmlScraper.scrape_sifts select) seen calls
  · exact fun earlier call later _ items answer => BrowserScraper.length_scrape hash answer
  · exact Scraper.distinct_of_sifts (BrowserScraper.scrape_sifts hash) seen calls
  · exact fun respects => (HttpScraper.withinLimits_iff format seen calls).mp respects.within
  · exact (HttpScraper.withinLimits_iff format seen calls).mpr fits
  · exact Scraper.distinct_of_sifts (HttpScraper.scrape_sifts format) seen calls

/-! ## A response of two posts to a call for one -/

namespace HttpScraper

def digestOfPosts (bytes : Bytes) : Nat :=
  let digests := match bytes.getLast? with
    | some 49 => [0xc8bb9f323d88f30609768f3351cdb21afc93b9e43f228205d77336e3e1f1aa69,
        0x85115f14f538925d6b83f76fbe4daba256270e0c7d323c9fe7a89dca9aa3bd66,
        0x58d62ea5507ed1e3256f7d11955617532842a74970161c640917035f377246dc,
        0x99f4a842752f2a9ec5f674df42e937e422714a54e0979fd4aaacaf07238980b8,
        0xfcf5e76a4cd9b3a00e1d8c455fb8ff51640ecba68e2fe8b90c86fdf655bcd384,
        0x28e39f3c36890d4200497b0978f4617ed262a314dd47c301c88ed6ba790ed8aa]
    | some 50 => [0x8e3b1263e8f27b83cc587a7af5a686b657458854c2314a5f5b85cda693b7e002,
        0x99176ac50881b4755e7317524290a8b658df082b8c0fed2970692fa68df06bd4,
        0xc09d08a068cf41fd7ce63f41b7e3f5e035df2024d1e52ec744d02b293d1d5ab5,
        0x8429c598d0e188e6640e55e9cc4d03d61f506e50cb11d429139df6d2dab2e080,
        0x35230362927047e24640204e34e42c5e5c6c27966567de6ef4dc6f3e7224e429,
        0xfa40e5cfeb401bd4dce46f5c2e00e7ae3659ddefe9465c1f61bfbb89dbe5c01b]
    | _ => []
  digests.getD ((bytes.headD 48).toNat - 48) 0

def formatInt : Json → Text
  | .int value => Json.dumpsInt value
  | _ => []

def postWithId (id : Int) : Post := ⟨[(Text.ofString "id", .int id)], .int id, List.lookup_cons_self⟩

/-- The filter is the one for a thousand items at an error rate of a hundredth. -/
theorem not_respects_two_posts :
    ¬ (httpScraper digestOfPosts formatInt).Respects (BloomFilter.init 9585 6)
      [⟨1, fun _ _ => some [postWithId 1, postWithId 2]⟩] := by
  intro respects
  have fits := (withinLimits_iff formatInt _ _).mp respects.within [] _ [] rfl (by decide +kernel)
  exact absurd fits (by decide +kernel)

end HttpScraper

end DataPipeline.Ingestor.Scrapers
