import ClaimCI.Python.Text

/-!
# Lines

Reading text with universal newlines against splitting it, and decoding bytes line by line.
-/

namespace Python

/-! ### Universal newlines -/

theorem split_cons_of_ne {α : Type} [DecidableEq α] {sep c : α} (other : c ≠ sep) (s : List α) :
    ∃ piece pieces, split sep s = piece :: pieces ∧
      split sep (c :: s) = (c :: piece) :: pieces := by
  obtain ⟨piece, pieces, found⟩ := List.exists_cons_of_ne_nil (split_ne_nil sep s)
  refine ⟨piece, pieces, found, ?_⟩
  rw [split, if_neg other, found]

/-- The pieces of a text between line ends of any kind. -/
def pieces (s : Str) : List Str := (split LF s).flatMap (split CR)

/-- The lists begin alike and, up to empty texts, go on alike. -/
def SamePieces (left right : List Str) : Prop :=
  ∃ first ls rs, left = first :: ls ∧ right = first :: rs ∧
    ls.filter (· ≠ []) = rs.filter (· ≠ [])

theorem SamePieces.filter {left right : List Str} (h : SamePieces left right) :
    left.filter (· ≠ []) = right.filter (· ≠ []) := by
  obtain ⟨first, ls, rs, rfl, rfl, same⟩ := h
  rw [List.filter_cons, List.filter_cons, same]

theorem SamePieces.cons {left right : List Str} (h : SamePieces left right) (c : CodePoint) :
    ∃ first ls rs, left = first :: ls ∧ right = first :: rs ∧
      SamePieces ((c :: first) :: ls) ((c :: first) :: rs) := by
  obtain ⟨first, ls, rs, rfl, rfl, same⟩ := h
  exact ⟨first, ls, rs, rfl, rfl, c :: first, ls, rs, rfl, rfl, same⟩

theorem pieces_LF (s : Str) : pieces (LF :: s) = [] :: pieces s := by
  rw [pieces, split_sep_cons]
  rfl

theorem pieces_CR (s : Str) : pieces (CR :: s) = [] :: pieces s := by
  obtain ⟨line, lines, found, next⟩ := split_cons_of_ne (show CR ≠ LF by decide) s
  rw [pieces, pieces, next, found, List.flatMap_cons, split_sep_cons]
  rfl

theorem pieces_cons {c : CodePoint} (noLF : c ≠ LF) (noCR : c ≠ CR) (s : Str) :
    ∃ piece rest, pieces s = piece :: rest ∧ pieces (c :: s) = (c :: piece) :: rest := by
  obtain ⟨line, lines, found, next⟩ := split_cons_of_ne noLF s
  obtain ⟨piece, rest, foundPiece, nextPiece⟩ := split_cons_of_ne noCR line
  refine ⟨piece, rest ++ lines.flatMap (split CR), ?_, ?_⟩
  · rw [pieces, found, List.flatMap_cons, foundPiece]
    rfl
  · rw [pieces, next, List.flatMap_cons, nextPiece]
    rfl

/-- Universal newlines separate the same texts as both line ends do, up to the empty ones between
a carriage return and the line feed that follows it. -/
theorem universalNewlines_pieces (s : Str) :
    SamePieces (split LF (universalNewlines s)) (pieces s) := by
  induction s using universalNewlines.induct with
  | case1 => exact ⟨[], [], [], rfl, rfl, rfl⟩
  | case2 => exact ⟨[], [[]], [[]], rfl, rfl, rfl⟩
  | case3 more ih =>
    rw [universalNewlines, if_pos rfl]
    simp only [if_true]
    rw [split_sep_cons, pieces_CR, pieces_LF]
    refine ⟨[], _, _, rfl, rfl, ?_⟩
    rw [List.filter_cons_of_neg (by simp)]
    exact ih.filter
  | case4 d more other ih =>
    rw [universalNewlines, if_pos rfl]
    simp only [if_neg other]
    rw [split_sep_cons, pieces_CR]
    exact ⟨[], _, _, rfl, rfl, ih.filter⟩
  | case5 c rest noCR ih =>
    rw [universalNewlines.eq_def]
    simp only [if_neg noCR]
    by_cases noLF : c = LF
    · subst noLF
      rw [split_sep_cons, pieces_LF]
      exact ⟨[], _, _, rfl, rfl, ih.filter⟩
    · obtain ⟨line, lines, found, next⟩ := split_cons_of_ne noLF (universalNewlines rest)
      obtain ⟨piece, others, foundPieces, nextPieces⟩ := pieces_cons noLF noCR rest
      obtain ⟨first, ls, rs, left, right, same⟩ := ih.cons c
      rw [next, nextPieces]
      obtain ⟨rfl, rfl⟩ := List.cons.inj (found.symm.trans left)
      obtain ⟨rfl, rfl⟩ := List.cons.inj (foundPieces.symm.trans right)
      exact same

/-! ### Decoding lines -/

/-- An ASCII byte is a character of its own, wherever it stands. -/
theorem decodeUtf8_append_ascii {x : UInt8} (ascii : x.toNat < 0x80) (a b : Bytes) :
    decodeUtf8 (a ++ x :: b) = (decodeUtf8 a).bind fun s =>
      (decodeUtf8 b).map fun t => s ++ codePoint x.toNat :: t := by
  have stop : isContinuation x = false := by
    simp only [isContinuation, Bool.and_eq_false_iff, decide_eq_false_iff_not]
    omega
  have one (rest : Bytes) :
      decodeUtf8 (x :: rest) = (decodeUtf8 rest).map (codePoint x.toNat :: ·) := by
    rw [decodeUtf8.eq_def]
    exact if_pos ascii
  -- inside a sequence the byte is no continuation, so nothing is decoded
  have second (y : UInt8) (rest : Bytes) (lead : ¬ y.toNat < 0x80) :
      decodeUtf8 (y :: x :: rest) = none := by
    rw [decodeUtf8.eq_def]
    rcases rest with _ | ⟨c, _ | ⟨d, rest⟩⟩ <;> simp [lead, stop]
  have third (y z : UInt8) (rest : Bytes) (lead : ¬ y.toNat < 0x80)
      (long : ¬ (0xC2 ≤ y.toNat ∧ y.toNat ≤ 0xDF)) : decodeUtf8 (y :: z :: x :: rest) = none := by
    rw [decodeUtf8.eq_def]
    rcases rest with _ | ⟨d, rest⟩ <;> simp [lead, long, stop]
  have fourth (y z w : UInt8) (rest : Bytes) (lead : ¬ y.toNat < 0x80)
      (long : ¬ (0xC2 ≤ y.toNat ∧ y.toNat ≤ 0xDF)) (longer : ¬ (0xE0 ≤ y.toNat ∧ y.toNat ≤ 0xEF)) :
      decodeUtf8 (y :: z :: w :: x :: rest) = none := by
    rw [decodeUtf8.eq_def]
    simp [lead, long, longer, stop]
  induction a using decodeUtf8.induct with
  | case1 =>
    rw [List.nil_append, one]
    simp [decodeUtf8]
  | case2 y rest lead ih =>
    rw [List.cons_append, decodeUtf8.eq_def]
    simp only [lead, if_true]
    rw [ih, decodeUtf8.eq_def (y :: rest)]
    simp only [lead, if_true]
    cases decodeUtf8 rest <;> cases decodeUtf8 b <;> rfl
  | case3 y lead =>
    rw [List.singleton_append, second y b lead, decodeUtf8.eq_def]
    simp [lead]
  | case4 y lead z rest two cont ih =>
    rw [List.cons_append, List.cons_append, decodeUtf8.eq_def, decodeUtf8.eq_def (y :: z :: rest)]
    simp only [lead, two, cont, and_self, if_true, if_false]
    rw [ih]
    cases decodeUtf8 rest <;> cases decodeUtf8 b <;> rfl
  | case5 y lead z rest two cont =>
    rw [List.cons_append, List.cons_append, decodeUtf8.eq_def, decodeUtf8.eq_def (y :: z :: rest)]
    simp [lead, two, cont]
  | case6 y lead z long =>
    rw [List.cons_append, List.singleton_append, third y z b lead long, decodeUtf8.eq_def]
    simp [lead, long]
  | case7 y lead z long w rest three cont ih =>
    rw [List.cons_append, List.cons_append, List.cons_append, decodeUtf8.eq_def,
      decodeUtf8.eq_def (y :: z :: w :: rest)]
    simp only [lead, long, three, and_self, if_true, if_false, if_pos cont]
    rw [ih]
    cases decodeUtf8 rest <;> cases decodeUtf8 b <;> rfl
  | case8 y lead z long w rest three cont =>
    rw [List.cons_append, List.cons_append, List.cons_append, decodeUtf8.eq_def,
      decodeUtf8.eq_def (y :: z :: w :: rest)]
    simp only [lead, long, three, and_self, if_true, if_false, if_neg cont]
    rfl
  | case9 y lead z long w longer =>
    rw [List.cons_append, List.cons_append, List.singleton_append, fourth y z w b lead long longer,
      decodeUtf8.eq_def]
    simp [lead, long, longer]
  | case10 y lead z long w longer u rest four ih =>
    rw [List.cons_append, List.cons_append, List.cons_append, List.cons_append, decodeUtf8.eq_def,
      decodeUtf8.eq_def (y :: z :: w :: u :: rest)]
    simp only [lead, long, longer, if_false, if_pos four]
    rw [ih]
    cases decodeUtf8 rest <;> cases decodeUtf8 b <;> rfl
  | case11 y lead z long w longer u rest four =>
    rw [List.cons_append, List.cons_append, List.cons_append, List.cons_append, decodeUtf8.eq_def,
      decodeUtf8.eq_def (y :: z :: w :: u :: rest)]
    simp only [lead, long, longer, if_false, if_neg four]
    rfl

theorem isContinuation_large {b : UInt8} (h : isContinuation b = true) :
    0x80 ≤ b.toNat ∧ b.toNat ≤ 0xBF := by
  simpa [isContinuation] using h

theorem codePoint_val_of_lt {n : Nat} (h : n < 0x110000) : (codePoint n).val = n :=
  Nat.mod_eq_of_lt h

/-- Decoding takes an ASCII byte to a character, or some other bytes to a character beyond ASCII. -/
theorem decodeUtf8_induction {P : Bytes → Str → Prop} (empty : P [] [])
    (ascii : ∀ (x : UInt8) (raw : Bytes) (text : Str), x.toNat < 0x80 → P raw text →
      P (x :: raw) (codePoint x.toNat :: text))
    (sequence : ∀ (front raw : Bytes) (c : CodePoint) (text : Str), front ≠ [] →
      (∀ b ∈ front, 0x80 ≤ b.toNat) → 0x80 ≤ c.val → P raw text → P (front ++ raw) (c :: text))
    {raw : Bytes} {text : Str} (h : decodeUtf8 raw = some text) : P raw text := by
  -- the cases of the decoder; a lead byte that fits no form decodes to nothing
  induction raw using decodeUtf8.induct generalizing text with
  | case1 =>
    obtain rfl := Option.some.inj h
    exact empty
  | case2 x rest lead ih =>
    rw [decodeUtf8.eq_def] at h
    simp only [lead, if_true] at h
    obtain ⟨more, decoded, rfl⟩ := Option.map_eq_some_iff.mp h
    exact ascii x rest more lead (ih decoded)
  | case3 x lead =>
    rw [decodeUtf8.eq_def] at h
    simp [lead] at h
  | case4 x lead y rest two cont ih =>
    rw [decodeUtf8.eq_def] at h
    simp only [lead, two, cont, and_self, if_true, if_false] at h
    obtain ⟨more, decoded, rfl⟩ := Option.map_eq_some_iff.mp h
    have first := isContinuation_large cont
    refine sequence [x, y] rest _ more (by simp) ?_ ?_ (ih decoded)
    · simp
      omega
    · rw [codePoint_val_of_lt (by omega)]
      omega
  | case5 x lead y rest two cont =>
    rw [decodeUtf8.eq_def] at h
    simp [lead, two, cont] at h
  | case6 x lead y long =>
    rw [decodeUtf8.eq_def] at h
    simp [lead, long] at h
  | case7 x lead y long z rest three cont ih =>
    rw [decodeUtf8.eq_def] at h
    simp only [lead, long, three, and_self, if_true, if_false, if_pos cont] at h
    obtain ⟨more, decoded, rfl⟩ := Option.map_eq_some_iff.mp h
    have first := isContinuation_large cont.1
    have second := isContinuation_large cont.2.1
    have overlong := cont.2.2.1
    refine sequence [x, y, z] rest _ more (by simp) ?_ ?_ (ih decoded)
    · simp
      omega
    · rw [codePoint_val_of_lt (by omega)]
      omega
  | case8 x lead y long z rest three cont =>
    rw [decodeUtf8.eq_def] at h
    simp only [lead, long, three, and_self, if_true, if_false, if_neg cont] at h
    cases h
  | case9 x lead y long z longer =>
    rw [decodeUtf8.eq_def] at h
    simp [lead, long, longer] at h
  | case10 x lead y long z longer w rest four ih =>
    rw [decodeUtf8.eq_def] at h
    simp only [lead, long, longer, if_false, if_pos four] at h
    obtain ⟨more, decoded, rfl⟩ := Option.map_eq_some_iff.mp h
    obtain ⟨low, high, contY, contZ, contW, overlong, beyond⟩ := four
    have first := isContinuation_large contY
    have second := isContinuation_large contZ
    have third := isContinuation_large contW
    refine sequence [x, y, z, w] rest _ more (by simp) ?_ ?_ (ih decoded)
    · simp
      omega
    · rw [codePoint_val_of_lt (by omega)]
      omega
  | case11 x lead y long z longer w rest four =>
    rw [decodeUtf8.eq_def] at h
    simp only [lead, long, longer, if_false, if_neg four] at h
    cases h

/-- ASCII characters are found in a text as bytes are in its encoding. -/
theorem decodeUtf8_any {p : Nat → Bool} (small : ∀ n, p n = true → n < 0x80) {raw : Bytes}
    {text : Str} (h : decodeUtf8 raw = some text) :
    (raw.any fun b => p b.toNat) = text.any fun c => p c.val := by
  have large : ∀ n, 0x80 ≤ n → p n = false := by
    intro n bound
    exact Bool.eq_false_iff.mpr fun holds => absurd (small n holds) (by omega)
  refine decodeUtf8_induction (P := fun raw text => (raw.any fun b => p b.toNat) =
    text.any fun c => p c.val) rfl ?_ ?_ h
  · intro x raw text lead ih
    rw [List.any_cons, List.any_cons, ih, codePoint_val_of_lt (by omega)]
  · intro front raw c text _ bytes beyond ih
    have none : (front.any fun b => p b.toNat) = false :=
      List.any_eq_false.mpr fun b hb => by simp [large _ (bytes b hb)]
    rw [List.any_append, List.any_cons, ih, none, large _ beyond]

/-- A property of ASCII characters alone holds of a text as it does of its encoding. -/
theorem decodeUtf8_all {p : Nat → Bool} (small : ∀ n, p n = true → n < 0x80) {raw : Bytes}
    {text : Str} (h : decodeUtf8 raw = some text) :
    (raw.all fun b => p b.toNat) = text.all fun c => p c.val := by
  have large : ∀ n, 0x80 ≤ n → p n = false := by
    intro n bound
    exact Bool.eq_false_iff.mpr fun holds => absurd (small n holds) (by omega)
  refine decodeUtf8_induction (P := fun raw text => (raw.all fun b => p b.toNat) =
    text.all fun c => p c.val) rfl ?_ ?_ h
  · intro x raw text lead ih
    rw [List.all_cons, List.all_cons, ih, codePoint_val_of_lt (by omega)]
  · intro front raw c text nonempty bytes beyond ih
    obtain ⟨b, front, rfl⟩ := List.exists_cons_of_ne_nil nonempty
    rw [List.cons_append, List.all_cons, List.all_cons, large _ (bytes b List.mem_cons_self),
      large _ beyond, Bool.false_and, Bool.false_and]

/-- A text is decoded line by line. -/
theorem decodeUtf8_split {x : UInt8} (ascii : x.toNat < 0x80) (raw : Bytes) (text : Str)
    (h : decodeUtf8 raw = some text) :
    (split x raw).map decodeUtf8 = (split (codePoint x.toNat) text).map some := by
  induction length : raw.length using Nat.strong_induction_on generalizing raw text with
  | _ n ih =>
    have absent : ∀ {raw : Bytes} {text : Str}, decodeUtf8 raw = some text → x ∉ raw →
        codePoint x.toNat ∉ text := by
      intro raw text decoded missing present
      have same := @decodeUtf8_any (fun n => n == x.toNat) (by simp; omega) raw text decoded
      have found : (text.any fun c => c.val == x.toNat) = true :=
        List.any_eq_true.mpr ⟨_, present, by rw [codePoint_val_of_lt (by omega)]; simp⟩
      rw [found, List.any_eq_true] at same
      obtain ⟨b, hb, equal⟩ := same
      rw [beq_iff_eq, UInt8.toNat_inj] at equal
      exact missing (equal ▸ hb)
    by_cases present : x ∈ raw
    · obtain ⟨front, back, rfl, first⟩ := List.eq_append_cons_of_mem present
      rw [decodeUtf8_append_ascii ascii] at h
      obtain ⟨frontText, decodedFront, h⟩ := Option.bind_eq_some_iff.mp h
      obtain ⟨backText, decodedBack, rfl⟩ := Option.map_eq_some_iff.mp h
      rw [split_append_sep x front back first,
        split_append_sep _ frontText backText (absent decodedFront first), List.map_cons,
        List.map_cons, decodedFront]
      congr 1
      refine ih back.length ?_ back backText decodedBack rfl
      rw [← length, List.length_append, List.length_cons]
      omega
    · rw [split_of_not_mem x raw present, split_of_not_mem _ text (absent h present)]
      simp [h]

/-- A text whose lines decode decodes. -/
theorem decodeUtf8_of_split {x : UInt8} (ascii : x.toNat < 0x80) (raw : Bytes)
    (lines : ∀ line ∈ split x raw, ∃ text, decodeUtf8 line = some text) :
    ∃ text, decodeUtf8 raw = some text := by
  induction length : raw.length using Nat.strong_induction_on generalizing raw with
  | _ n ih =>
    by_cases present : x ∈ raw
    · obtain ⟨front, back, rfl, first⟩ := List.eq_append_cons_of_mem present
      rw [split_append_sep x front back first] at lines
      obtain ⟨decodes, others⟩ := List.forall_mem_cons.mp lines
      obtain ⟨frontText, decodedFront⟩ := decodes
      obtain ⟨backText, decodedBack⟩ := ih back.length (by
        rw [← length, List.length_append, List.length_cons]
        omega) back others rfl
      exact ⟨_, by rw [decodeUtf8_append_ascii ascii, decodedFront, decodedBack]; rfl⟩
    · rw [split_of_not_mem x raw present] at lines
      exact lines raw List.mem_cons_self

/-- The whitespace of `bytes.strip`, as characters. -/
def isAsciiSpace (c : CodePoint) : Bool := c.val = 0x20 || (0x09 ≤ c.val && c.val ≤ 0x0D)

/-- Bytes are blank when their text is blank, as long as it is ASCII whitespace. -/
theorem isByteBlank_iff {raw : Bytes} {text : Str} (h : decodeUtf8 raw = some text) :
    isByteBlank raw = text.all isAsciiSpace := by
  have same := @decodeUtf8_all (fun n => n = 0x20 || (0x09 ≤ n && n ≤ 0x0D)) (by
    intro n
    simp
    omega) raw text h
  rw [isByteBlank, show isByteSpace = fun b : UInt8 =>
      decide (b.toNat = 0x20) || (0x09 ≤ b.toNat && b.toNat ≤ 0x0D) by
    funext b
    rw [isByteSpace, show (b == 0x20) = decide (b.toNat = 0x20) by
      rw [Bool.eq_iff_iff, beq_iff_eq, decide_eq_true_eq, ← UInt8.toNat_inj]
      rfl]]
  exact same

/-- Blank bytes decode. -/
theorem decodeUtf8_of_blank {raw : Bytes} (blank : isByteBlank raw = true) :
    ∃ text, decodeUtf8 raw = some text := by
  induction raw with
  | nil => exact ⟨[], rfl⟩
  | cons b raw ih =>
    rw [isByteBlank, List.all_cons, Bool.and_eq_true] at blank
    obtain ⟨text, decoded⟩ := ih blank.2
    have small : b.toNat < 0x80 := by
      have space := blank.1
      simp only [isByteSpace, Bool.or_eq_true, beq_iff_eq, Bool.and_eq_true,
        decide_eq_true_eq] at space
      rcases space with rfl | range
      · decide
      · omega
    refine ⟨codePoint b.toNat :: text, ?_⟩
    rw [decodeUtf8.eq_def]
    simp only [small, if_true, decoded, Option.map_some]

theorem isSpace_of_asciiSpace {c : CodePoint} (h : isAsciiSpace c = true) : isSpace c = true := by
  simp only [isAsciiSpace, Bool.or_eq_true, Bool.and_eq_true, decide_eq_true_eq] at h
  simp only [isSpace, Bool.or_eq_true, Bool.and_eq_true, decide_eq_true_eq, beq_iff_eq]
  omega

end Python
