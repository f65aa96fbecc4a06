import DataPipeline.Library.Text

/-! What a decoder that goes on after errors makes of UTF-8: the text back, if the
bytes are those of one, and in any case the ASCII characters that are there.
-/

set_option autoImplicit false

namespace Encoding

variable {surrogates : Bool} {lead : UInt8} {bytes rest : Bytes} {code taken skipped : Nat}

/-! ## One sequence -/

theorem followers_low {lead : Nat} {ranges : List (Nat × Nat)} (followed : followers surrogates lead = some ranges) :
    ∀ range ∈ ranges, 0x80 ≤ range.1 := by
  unfold followers at followed
  split_ifs at followed <;> simp only [Option.some.injEq] at followed <;> subst followed <;> simp

theorem following_eq_take (ranges : List (Nat × Nat)) (bytes : Bytes) :
    following ranges bytes = (bytes.take (following ranges bytes).length).map UInt8.toNat := by
  induction ranges generalizing bytes with
  | nil => simp [following]
  | cons range ranges ih =>
    obtain ⟨low, high⟩ := range
    cases bytes with
    | nil => simp [following]
    | cons byte bytes =>
      rw [following]
      split
      next =>
        rw [List.length_cons, List.take_succ_cons, List.map_cons]
        exact congrArg (byte.toNat :: ·) (ih bytes)
      next => simp

theorem le_of_mem_following {ranges : List (Nat × Nat)} (low : ∀ range ∈ ranges, 0x80 ≤ range.1) {bytes : Bytes}
    {value : Nat} (member : value ∈ following ranges bytes) : 0x80 ≤ value := by
  induction ranges generalizing bytes with
  | nil => simp [following] at member
  | cons range ranges ih =>
    obtain ⟨first, last⟩ := range
    cases bytes with
    | nil => simp [following] at member
    | cons byte bytes =>
      rw [following] at member
      split at member
      next inside =>
        rcases List.mem_cons.mp member with rfl | later
        · exact le_trans (low _ List.mem_cons_self) inside.1
        · exact ih (fun range listed => low range (List.mem_cons_of_mem _ listed)) later
      next => cases member

theorem following_fits {ranges : List (Nat × Nat)} {bytes : Bytes}
    (full : (following ranges bytes).length = ranges.length) :
    List.Forall₂ (fun value range => range.1 ≤ value ∧ value ≤ range.2) (following ranges bytes) ranges := by
  induction ranges generalizing bytes with
  | nil => simp [following]
  | cons range ranges ih =>
    obtain ⟨low, high⟩ := range
    cases bytes with
    | nil => simp [following] at full
    | cons byte bytes =>
      rw [following] at full ⊢
      split at full
      next inside =>
        rw [if_pos inside]
        exact .cons inside (ih (Nat.succ.inj full))
      next => simp at full

theorem value_beyond {lead : Nat} {ranges : List (Nat × Nat)} {tail : List Nat} (beyond : 0x80 ≤ lead)
    (followed : followers surrogates lead = some ranges)
    (fits : List.Forall₂ (fun value range => range.1 ≤ value ∧ value ≤ range.2) tail ranges) :
    0x80 ≤ tail.foldl (fun value byte => 64 * value + byte % 64)
      (if ranges = [] then lead else lead % 2 ^ (6 - ranges.length)) := by
  unfold followers at followed
  split_ifs at followed <;> simp only [Option.some.injEq] at followed <;> subst followed <;>
    simp only [List.forall₂_cons_right_iff, List.forall₂_nil_right_iff] at fits
  · omega
  · obtain ⟨second, _, ⟨low, high⟩, rfl, rfl⟩ := fits
    simp only [reduceCtorEq, if_false, List.length_cons, List.length_nil, List.foldl_cons, List.foldl_nil]
    omega
  -- Of three bytes there are the two special leads and the others, and so of four.
  iterate 3
    · obtain ⟨second, _, ⟨low, high⟩, ⟨third, _, ⟨lower, upper⟩, rfl, rfl⟩, rfl⟩ := fits
      simp only [reduceCtorEq, if_false, List.length_cons, List.length_nil, List.foldl_cons, List.foldl_nil]
      omega
  iterate 3
    · obtain ⟨second, _, ⟨low, high⟩, ⟨third, _, ⟨lower, upper⟩, ⟨fourth, _, bounds, rfl, rfl⟩, rfl⟩, rfl⟩ := fits
      simp only [reduceCtorEq, if_false, List.length_cons, List.length_nil, List.foldl_cons, List.foldl_nil]
      omega

/-- A decoder takes or skips a lead byte and what belongs to it, all beyond ASCII unless
the lead byte is an ASCII character. -/
theorem nextUtf8_beyond (beyond : 0x80 ≤ lead.toNat) :
    ∃ length, 0 < length ∧ (∀ byte ∈ (lead :: bytes).take length, 0x80 ≤ byte.toNat) ∧
      (nextUtf8 surrogates lead bytes = .error length ∨
        ∃ code, 0x80 ≤ code ∧ nextUtf8 surrogates lead bytes = .ok (code, length)) := by
  cases followed : followers surrogates lead.toNat with
  | none => exact ⟨1, Nat.one_pos, by simp [beyond], .inl (by rw [nextUtf8, followed])⟩
  | some ranges =>
    refine ⟨1 + (following ranges bytes).length, by omega, ?_, ?_⟩
    · intro byte member
      rw [Nat.add_comm, List.take_succ_cons] at member
      rcases List.mem_cons.mp member with rfl | later
      · exact beyond
      · have value : byte.toNat ∈ following ranges bytes := by
          rw [following_eq_take]
          exact List.mem_map_of_mem later
        exact le_of_mem_following (followers_low followed) value
    · rw [nextUtf8, followed]
      by_cases full : (following ranges bytes).length = ranges.length
      · exact .inr ⟨_, value_beyond beyond followed (following_fits full), by simp only [full, if_true]⟩
      · exact .inl (by simp only [full, if_false])

theorem following_cons {low high : Nat} {ranges : List (Nat × Nat)} {byte : UInt8}
    (inside : low ≤ byte.toNat ∧ byte.toNat ≤ high) :
    following ((low, high) :: ranges) (byte :: bytes) = byte.toNat :: following ranges bytes := if_pos inside

theorem following_nil (bytes : Bytes) : following [] bytes = [] := by
  cases bytes <;> rfl

theorem nextUtf8_of_followers {ranges : List (Nat × Nat)} {values : List Nat}
    (followed : followers surrogates lead.toNat = some ranges) (longer : ranges ≠ [])
    (read : following ranges bytes = values) (full : values.length = ranges.length)
    (value : values.foldl (fun value byte => 64 * value + byte % 64) (lead.toNat % 2 ^ (6 - ranges.length)) = code) :
    nextUtf8 surrogates lead bytes = .ok (code, 1 + values.length) := by
  rw [nextUtf8, followed]
  simp only [read, full, if_true, if_neg longer, value]

theorem nextUtf8_encode (fits : code < 0x110000) {encoded : Bytes} (written : encodeUtf8Code code = some encoded)
    (rest : Bytes) : ∃ lead tail, encoded = lead :: tail ∧
      nextUtf8 false lead (tail ++ rest) = .ok (code, 1 + tail.length) := by
  have byte {c : Nat} (small : c < 256) : c.toUInt8.toNat = c := toNat_toUInt8 small
  unfold encodeUtf8Code at written
  split_ifs at written <;> cases written
  next small => exact ⟨_, _, rfl, nextUtf8_ascii rest small⟩
  next big small =>
    have lead : (0xC0 + code / 64).toUInt8.toNat = 0xC0 + code / 64 := byte (by omega)
    have second : (0x80 + code % 64).toUInt8.toNat = 0x80 + code % 64 := byte (by omega)
    have followed : followers false (0xC0 + code / 64).toUInt8.toNat = some [(0x80, 0xBF)] := by
      rw [lead, followers, if_neg (by omega), if_neg (by omega), if_pos (by omega)]
    have read : following [(0x80, 0xBF)] ([(0x80 + code % 64).toUInt8] ++ rest) = [0x80 + code % 64] := by
      rw [List.singleton_append, following_cons (by omega), following_nil, second]
    refine ⟨_, _, rfl, nextUtf8_of_followers followed (List.cons_ne_nil _ _) read rfl ?_⟩
    simp only [lead, List.foldl_cons, List.foldl_nil, List.length_cons, List.length_nil]
    omega
  next big beyond plain small =>
    have lead : (0xE0 + code / 4096).toUInt8.toNat = 0xE0 + code / 4096 := byte (by omega)
    have second : (0x80 + code / 64 % 64).toUInt8.toNat = 0x80 + code / 64 % 64 := byte (by omega)
    have third : (0x80 + code % 64).toUInt8.toNat = 0x80 + code % 64 := byte (by omega)
    -- The second byte of the first and of the fourteenth lead has bounds of its own: neither
    -- overlong forms nor surrogates are written.
    obtain ⟨low, high, followed, inside⟩ : ∃ low high,
        followers false (0xE0 + code / 4096).toUInt8.toNat = some [(low, high), (0x80, 0xBF)] ∧
          low ≤ 0x80 + code / 64 % 64 ∧ 0x80 + code / 64 % 64 ≤ high := by
      rw [lead, followers, if_neg (by omega), if_neg (by omega), if_neg (by omega), if_pos (by omega)]
      split_ifs <;> exact ⟨_, _, rfl, by omega, by omega⟩
    have read : following [(low, high), (0x80, 0xBF)]
        ([(0x80 + code / 64 % 64).toUInt8, (0x80 + code % 64).toUInt8] ++ rest) =
          [0x80 + code / 64 % 64, 0x80 + code % 64] := by
      rw [List.cons_append, List.singleton_append, following_cons (by omega), following_cons (by omega), following_nil,
        second, third]
    refine ⟨_, _, rfl, nextUtf8_of_followers followed (List.cons_ne_nil _ _) read rfl ?_⟩
    simp only [lead, List.foldl_cons, List.foldl_nil, List.length_cons, List.length_nil]
    omega
  next big beyond plain large =>
    have lead : (0xF0 + code / 262144).toUInt8.toNat = 0xF0 + code / 262144 := byte (by omega)
    have second : (0x80 + code / 4096 % 64).toUInt8.toNat = 0x80 + code / 4096 % 64 := byte (by omega)
    have third : (0x80 + code / 64 % 64).toUInt8.toNat = 0x80 + code / 64 % 64 := byte (by omega)
    have fourth : (0x80 + code % 64).toUInt8.toNat = 0x80 + code % 64 := byte (by omega)
    obtain ⟨low, high, followed, inside⟩ : ∃ low high,
        followers false (0xF0 + code / 262144).toUInt8.toNat = some [(low, high), (0x80, 0xBF), (0x80, 0xBF)] ∧
          low ≤ 0x80 + code / 4096 % 64 ∧ 0x80 + code / 4096 % 64 ≤ high := by
      rw [lead, followers, if_neg (by omega), if_neg (by omega), if_neg (by omega), if_neg (by omega),
        if_pos (by omega)]
      split_ifs <;> exact ⟨_, _, rfl, by omega, by omega⟩
    have read : following [(low, high), (0x80, 0xBF), (0x80, 0xBF)]
        ([(0x80 + code / 4096 % 64).toUInt8, (0x80 + code / 64 % 64).toUInt8, (0x80 + code % 64).toUInt8] ++ rest) =
          [0x80 + code / 4096 % 64, 0x80 + code / 64 % 64, 0x80 + code % 64] := by
      rw [List.cons_append, List.cons_append, List.singleton_append, following_cons (by omega),
        following_cons (by omega), following_cons (by omega), following_nil, second, third, fourth]
    refine ⟨_, _, rfl, nextUtf8_of_followers followed (List.cons_ne_nil _ _) read rfl ?_⟩
    simp only [lead, List.foldl_cons, List.foldl_nil, List.length_cons, List.length_nil]
    omega

/-! ## Whole texts -/

theorem encodeUtf8_cons_eq_some {text : Text} :
    encodeUtf8 (code :: text) = some bytes ↔
      ∃ first rest, encodeUtf8Code code = some first ∧ encodeUtf8 text = some rest ∧ bytes = first ++ rest := by
  simp only [encodeUtf8, List.mapM_cons, Option.map_eq_some_iff, Option.bind_eq_bind, Option.bind_eq_some_iff,
    Option.pure_def, Option.some.injEq]
  constructor
  · rintro ⟨_, ⟨first, head, others, tail, rfl⟩, rfl⟩
    exact ⟨first, others.flatten, head, ⟨others, tail, rfl⟩, List.flatten_cons⟩
  · rintro ⟨first, _, head, ⟨others, tail, rfl⟩, rfl⟩
    exact ⟨first :: others, ⟨first, head, others, tail, rfl⟩, List.flatten_cons⟩

theorem go_encode {text : Text} (codes : ∀ c ∈ text, c < 0x110000) (written : encodeUtf8 text = some bytes)
    {fuel : Nat} (enough : bytes.length ≤ fuel) : decodeUtf8Replacing.go fuel bytes = text := by
  induction text generalizing bytes fuel with
  | nil =>
    cases written
    cases fuel <;> rfl
  | cons c text ih =>
    obtain ⟨small, others⟩ := List.forall_mem_cons.mp codes
    obtain ⟨first, rest, head, tail, rfl⟩ := encodeUtf8_cons_eq_some.mp written
    obtain ⟨lead, follow, rfl, next⟩ := nextUtf8_encode small head rest
    cases fuel with
    | zero => simp at enough
    | succ fuel =>
      have remaining : ((lead :: (follow ++ rest)).drop (1 + follow.length)) = rest := by
        rw [Nat.add_comm, List.drop_succ_cons, List.drop_left]
      have room : rest.length ≤ fuel := by
        simp only [List.cons_append, List.length_cons, List.length_append] at enough
        omega
      rw [List.cons_append, decodeUtf8Replacing.go, next]
      simp only [remaining, ih others tail room]

theorem decodeUtf8Replacing_encode {text : Text} (codes : ∀ c ∈ text, c < 0x110000)
    (written : encodeUtf8 text = some bytes) : decodeUtf8Replacing bytes = text := go_encode codes written le_rfl

theorem nextUtf8_of_ascii (ascii : lead.toNat < 0x80) (bytes : Bytes) :
    nextUtf8 surrogates lead bytes = .ok (lead.toNat, 1) := by
  have same : lead = lead.toNat.toUInt8 := UInt8.ofNat_toNat.symm
  rw [same]
  simpa using nextUtf8_ascii bytes ascii

theorem go_ascii (fuel : Nat) {bytes : Bytes} (enough : bytes.length ≤ fuel) :
    (decodeUtf8Replacing.go fuel bytes).filter (· < 0x80) = (bytes.map UInt8.toNat).filter (· < 0x80) := by
  induction fuel generalizing bytes with
  | zero =>
    rw [List.length_eq_zero_iff.mp (Nat.le_zero.mp enough)]
    rfl
  | succ fuel ih =>
    cases bytes with
    | nil => rfl
    | cons lead bytes =>
      by_cases ascii : lead.toNat < 0x80
      · rw [decodeUtf8Replacing.go, nextUtf8_of_ascii ascii]
        simp only [List.drop_succ_cons, List.drop_zero, List.map_cons, List.filter_cons, ascii, decide_true, if_true,
          ih (Nat.le_of_succ_le_succ enough)]
      · obtain ⟨length, positive, beyond, next⟩ := @nextUtf8_beyond false lead bytes
          (Nat.not_lt.mp ascii)
        have none_ : (((lead :: bytes).take length).map UInt8.toNat).filter (· < 0x80) = [] := by
          rw [List.filter_eq_nil_iff]
          intro value member
          obtain ⟨byte, listed, rfl⟩ := List.mem_map.mp member
          simpa using beyond byte listed
        have split : ((lead :: bytes).map UInt8.toNat).filter (· < 0x80) =
            (((lead :: bytes).drop length).map UInt8.toNat).filter (· < 0x80) := by
          conv_lhs => rw [← List.take_append_drop length (lead :: bytes), List.map_append, List.filter_append, none_,
            List.nil_append]
        have room : ((lead :: bytes).drop length).length ≤ fuel := by
          rw [List.length_drop]
          omega
        rw [split, ← ih room, decodeUtf8Replacing.go]
        rcases next with skipped | ⟨code, large, read⟩
        · simp [skipped]
        · simp [read, Nat.not_lt.mpr large]

/-- A decoder neither loses nor invents ASCII characters. -/
theorem filter_decodeUtf8Replacing (bytes : Bytes) :
    (decodeUtf8Replacing bytes).filter (· < 0x80) = (bytes.map UInt8.toNat).filter (· < 0x80) :=
  go_ascii bytes.length le_rfl

end Encoding
