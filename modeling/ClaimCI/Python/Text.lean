import Mathlib

/-!
# Text

Strings as sequences of code points, byte strings, whitespace, UTF-8 and line splitting, with the
meaning the language reference gives them. A string may hold unpaired surrogates.
-/

namespace Python

/-- A Unicode code point; surrogates are code points too, so this is larger than `Char`. -/
abbrev CodePoint := Fin 0x110000

instance codePointRange : NeZero 0x110000 := ⟨by decide⟩

abbrev Str := List CodePoint

abbrev Bytes := List UInt8

def codePoint (n : Nat) : CodePoint := Fin.ofNat 0x110000 n

/-- The string a literal denotes. -/
def lit (s : String) : Str := s.toList.map fun c => codePoint c.toNat

instance : Coe String Str := ⟨lit⟩

def LF : CodePoint := 0x0A
def CR : CodePoint := 0x0D

/-! ### Whitespace -/

/-- `str.isspace` on one character. -/
def isSpace (c : CodePoint) : Bool :=
  (0x09 ≤ c.val && c.val ≤ 0x0D) || (0x1C ≤ c.val && c.val ≤ 0x20) || c.val == 0x85 ||
  c.val == 0xA0 || c.val == 0x1680 || (0x2000 ≤ c.val && c.val ≤ 0x200A) || c.val == 0x2028 ||
  c.val == 0x2029 || c.val == 0x202F || c.val == 0x205F || c.val == 0x3000

/-- `str.strip`. -/
def strip (s : Str) : Str := (s.dropWhile isSpace).rdropWhile isSpace

/-- `not s.strip()`. -/
def isBlank (s : Str) : Bool := s.all isSpace

theorem strip_eq_nil_iff (s : Str) : strip s = [] ↔ isBlank s = true := by
  simp only [strip, isBlank, List.rdropWhile_eq_nil_iff, List.all_eq_true]
  constructor
  · intro h c hc
    rw [← List.takeWhile_append_dropWhile (p := isSpace) (l := s)] at hc
    rcases List.mem_append.mp hc with front | back
    · exact List.mem_takeWhile_imp front
    · exact h c back
  · exact fun h c hc => h c ((List.dropWhile_sublist isSpace).subset hc)

/-- `bytes.strip` removes ASCII whitespace only. -/
def isByteSpace (b : UInt8) : Bool :=
  b == 0x20 || (0x09 ≤ b.toNat && b.toNat ≤ 0x0D)

/-- `not raw.strip()` on bytes. -/
def isByteBlank (raw : Bytes) : Bool := raw.all isByteSpace

/-! ### Splitting -/

/-- `s.split(sep)` for a separator of one element: never empty, and one piece more than there are
separators. -/
def split {α : Type} [DecidableEq α] (sep : α) : List α → List (List α)
  | [] => [[]]
  | c :: rest =>
    if c = sep then [] :: split sep rest
    else match split sep rest with
      | [] => [[c]]
      | piece :: pieces => (c :: piece) :: pieces

section Split

variable {α : Type} [DecidableEq α] (sep : α)

theorem split_ne_nil (s : List α) : split sep s ≠ [] := by
  cases s with
  | nil => simp [split]
  | cons c rest =>
    unfold split
    split
    · simp
    · cases Python.split sep rest <;> simp

theorem split_sep_cons (s : List α) : split sep (sep :: s) = [] :: split sep s := by
  simp [split]

theorem split_of_not_mem (s : List α) (h : sep ∉ s) : split sep s = [s] := by
  induction s with
  | nil => rfl
  | cons c rest ih =>
    simp only [List.mem_cons, not_or] at h
    rw [split, if_neg (Ne.symm h.1), ih h.2]

theorem split_append_sep (s t : List α) (h : sep ∉ s) :
    split sep (s ++ sep :: t) = s :: split sep t := by
  induction s with
  | nil => simp [split]
  | cons c rest ih =>
    simp only [List.mem_cons, not_or] at h
    rw [List.cons_append, split, if_neg (Ne.symm h.1), ih h.2]

theorem split_intercalate {sep : CodePoint} {parts : List Str} (some : parts ≠ [])
    (apart : ∀ part ∈ parts, sep ∉ part) : split sep ([sep].intercalate parts) = parts := by
  induction parts with
  | nil => exact absurd rfl some
  | cons part parts ih =>
    cases parts with
    | nil =>
      rw [List.intercalate_singleton]
      exact split_of_not_mem sep part (apart part List.mem_cons_self)
    | cons next parts =>
      rw [List.intercalate_cons_cons, List.append_assoc, List.singleton_append,
        split_append_sep sep part _ (apart part List.mem_cons_self),
        ih (List.cons_ne_nil next parts) fun other member =>
          apart other (List.mem_cons_of_mem part member)]

theorem not_mem_of_mem_split (s : List α) : ∀ piece ∈ split sep s, sep ∉ piece := by
  induction s with
  | nil => simp [split]
  | cons c rest ih =>
    unfold split
    split
    · intro piece hp
      rcases List.mem_cons.mp hp with rfl | hp
      · simp
      · exact ih piece hp
    next other =>
      cases pieces : Python.split sep rest with
      | nil => exact absurd pieces (split_ne_nil sep rest)
      | cons first others =>
        rw [pieces] at ih
        intro piece hp
        rcases List.mem_cons.mp hp with rfl | hp
        · simp only [List.mem_cons, not_or]
          exact ⟨fun h => other h.symm, ih first (by simp)⟩
        · exact ih piece (by simp [hp])

end Split

/-- Text-mode reading turns CR LF and a lone CR into LF. -/
def universalNewlines : Str → Str
  | [] => []
  | c :: rest =>
    if c = CR then
      match rest with
      | [] => [LF]
      | d :: more =>
        if d = LF then LF :: universalNewlines more else LF :: universalNewlines (d :: more)
    else c :: universalNewlines rest

/-! ### UTF-8 -/

def isContinuation (b : UInt8) : Bool := 0x80 ≤ b.toNat && b.toNat ≤ 0xBF

/-- The encoding of one code point; surrogates have none. -/
def encodeCodePoint (c : CodePoint) : Option Bytes :=
  let n := c.val
  if n < 0x80 then some [n.toUInt8]
  else if n < 0x800 then some [(0xC0 + n / 64).toUInt8, (0x80 + n % 64).toUInt8]
  else if 0xD800 ≤ n ∧ n ≤ 0xDFFF then none
  else if n < 0x10000 then
    some [(0xE0 + n / 4096).toUInt8, (0x80 + n / 64 % 64).toUInt8, (0x80 + n % 64).toUInt8]
  else some [(0xF0 + n / 262144).toUInt8, (0x80 + n / 4096 % 64).toUInt8,
    (0x80 + n / 64 % 64).toUInt8, (0x80 + n % 64).toUInt8]

/-- `s.encode("utf-8")`; `none` is `UnicodeEncodeError`. -/
def encodeUtf8 (s : Str) : Option Bytes := (s.mapM encodeCodePoint).map List.flatten

/-- `raw.decode("utf-8", errors="strict")`; `none` is `UnicodeDecodeError`. -/
def decodeUtf8 : Bytes → Option Str
  | [] => some []
  | a :: rest =>
    if a.toNat < 0x80 then (decodeUtf8 rest).map (codePoint a.toNat :: ·)
    else match rest with
      | [] => none
      | b :: rest =>
        if 0xC2 ≤ a.toNat ∧ a.toNat ≤ 0xDF then
          if isContinuation b then
            (decodeUtf8 rest).map (codePoint (a.toNat % 32 * 64 + b.toNat % 64) :: ·)
          else none
        else match rest with
          | [] => none
          | c :: rest =>
            if 0xE0 ≤ a.toNat ∧ a.toNat ≤ 0xEF then
              if isContinuation b ∧ isContinuation c ∧ (a.toNat = 0xE0 → 0xA0 ≤ b.toNat) ∧
                  (a.toNat = 0xED → b.toNat ≤ 0x9F) then
                (decodeUtf8 rest).map
                  (codePoint (a.toNat % 16 * 4096 + b.toNat % 64 * 64 + c.toNat % 64) :: ·)
              else none
            else match rest with
              | [] => none
              | d :: rest =>
                if 0xF0 ≤ a.toNat ∧ a.toNat ≤ 0xF4 ∧ isContinuation b ∧ isContinuation c ∧
                    isContinuation d ∧ (a.toNat = 0xF0 → 0x90 ≤ b.toNat) ∧
                    (a.toNat = 0xF4 → b.toNat ≤ 0x8F) then
                  (decodeUtf8 rest).map (codePoint (a.toNat % 8 * 262144 + b.toNat % 64 * 4096 +
                    c.toNat % 64 * 64 + d.toNat % 64) :: ·)
                else none

private theorem codePoint_eq (c : CodePoint) (n : Nat) (h : n = c.val) : codePoint n = c := by
  subst h
  exact Fin.ext (Nat.mod_eq_of_lt c.isLt)

private theorem toNat_toUInt8 (n : Nat) (h : n < 256) : n.toUInt8.toNat = n := by
  simp [Nat.toUInt8, Nat.mod_eq_of_lt h]

/-- Decoding undoes the encoding of one code point, whatever follows. -/
private theorem decodeUtf8_encodeCodePoint (c : CodePoint) (raw rest : Bytes)
    (h : encodeCodePoint c = some raw) : decodeUtf8 (raw ++ rest) = (decodeUtf8 rest).map (c :: ·) := by
  have bound := c.isLt
  unfold encodeCodePoint at h
  simp only at h
  -- one case for each length of the encoding; the lead byte tells the decoder which
  split at h
  next one =>
    obtain rfl := Option.some.inj h
    have a := toNat_toUInt8 c.val (by omega)
    rw [List.singleton_append, decodeUtf8.eq_def]
    simp only [a]
    rw [ if_pos one, codePoint_eq c c.val rfl]
  split at h
  next big two =>
    obtain rfl := Option.some.inj h
    have a := toNat_toUInt8 (0xC0 + c.val / 64) (by omega)
    have b := toNat_toUInt8 (0x80 + c.val % 64) (by omega)
    have cont : isContinuation (0x80 + c.val % 64).toUInt8 = true := by
      simp only [isContinuation, b, Bool.and_eq_true, decide_eq_true_eq]
      omega
    simp only [List.cons_append, List.nil_append]
    rw [decodeUtf8.eq_def]
    simp only [a, b, cont, if_true]
    rw [if_neg (by omega), if_pos (by omega), codePoint_eq c _ (by omega)]
  split at h
  -- surrogates have no encoding
  · cases h
  split at h
  next big bigger valid three =>
    obtain rfl := Option.some.inj h
    have a := toNat_toUInt8 (0xE0 + c.val / 4096) (by omega)
    have b := toNat_toUInt8 (0x80 + c.val / 64 % 64) (by omega)
    have d := toNat_toUInt8 (0x80 + c.val % 64) (by omega)
    have contB : isContinuation (0x80 + c.val / 64 % 64).toUInt8 = true := by
      simp only [isContinuation, b, Bool.and_eq_true, decide_eq_true_eq]
      omega
    have contD : isContinuation (0x80 + c.val % 64).toUInt8 = true := by
      simp only [isContinuation, d, Bool.and_eq_true, decide_eq_true_eq]
      omega
    simp only [List.cons_append, List.nil_append]
    rw [decodeUtf8.eq_def]
    simp only [a, b, d, contB, contD, true_and]
    rw [if_neg (by omega), if_neg (by omega), if_pos (by omega),
      if_pos ⟨by omega, by omega⟩, codePoint_eq c _ (by omega)]
  next big bigger valid four =>
    obtain rfl := Option.some.inj h
    have a := toNat_toUInt8 (0xF0 + c.val / 262144) (by omega)
    have b := toNat_toUInt8 (0x80 + c.val / 4096 % 64) (by omega)
    have d := toNat_toUInt8 (0x80 + c.val / 64 % 64) (by omega)
    have e := toNat_toUInt8 (0x80 + c.val % 64) (by omega)
    have contB : isContinuation (0x80 + c.val / 4096 % 64).toUInt8 = true := by
      simp only [isContinuation, b, Bool.and_eq_true, decide_eq_true_eq]
      omega
    have contD : isContinuation (0x80 + c.val / 64 % 64).toUInt8 = true := by
      simp only [isContinuation, d, Bool.and_eq_true, decide_eq_true_eq]
      omega
    have contE : isContinuation (0x80 + c.val % 64).toUInt8 = true := by
      simp only [isContinuation, e, Bool.and_eq_true, decide_eq_true_eq]
      omega
    simp only [List.cons_append, List.nil_append]
    rw [decodeUtf8.eq_def]
    simp only [a, b, d, e, contB, contD, contE, true_and]
    rw [if_neg (by omega), if_neg (by omega), if_neg (by omega),
      if_pos ⟨by omega, by omega, by omega, by omega⟩, codePoint_eq c _ (by omega)]

/-- Decoding undoes encoding. -/
theorem decodeUtf8_encodeUtf8 (s : Str) (raw : Bytes) (h : encodeUtf8 s = some raw) :
    decodeUtf8 raw = some s := by
  induction s generalizing raw with
  | nil =>
    obtain rfl : [] = raw := Option.some.inj h
    rfl
  | cons c s ih =>
    simp only [encodeUtf8, List.mapM_cons, Option.map_eq_some_iff] at h
    obtain ⟨pieces, hp, rfl⟩ := h
    simp only [Option.bind_eq_bind, Option.bind_eq_some_iff, Option.pure_def,
      Option.some.injEq] at hp
    obtain ⟨first, encoded, others, mapped, rfl⟩ := hp
    have rest := ih others.flatten (by simp only [encodeUtf8, mapped, Option.map_some])
    rw [List.flatten_cons, decodeUtf8_encodeCodePoint c first _ encoded, rest]
    rfl

theorem encodeUtf8_injective {s t : Str} {raw : Bytes} (hs : encodeUtf8 s = some raw)
    (ht : encodeUtf8 t = some raw) : s = t :=
  Option.some.inj ((decodeUtf8_encodeUtf8 s raw hs).symm.trans (decodeUtf8_encodeUtf8 t raw ht))

example : decodeUtf8 [0x61, 0xC3, 0xA9, 0xE2, 0x82, 0xAC, 0xF0, 0x9F, 0x98, 0x80] =
    some [0x61, 0xE9, 0x20AC, 0x1F600] := by decide

end Python
