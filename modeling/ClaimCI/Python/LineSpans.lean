import ClaimCI.Python.Lines

/-!
# Spans of lines

The lines of a text between two line numbers, and what is left of them when the text is cut.
-/

namespace Python

/-- Lines joined by LF. -/
def joinLines (lines : List Str) : Str := [LF].intercalate lines

/-- The lines `start..end`, counted from one. -/
def lineSpan (lines : List Str) (startLine endLine : Nat) : List Str :=
  (lines.take endLine).drop (startLine - 1)

/-! ### Texts without CR -/

theorem universalNewlines_of_not_mem {s : Str} (h : CR ∉ s) : universalNewlines s = s := by
  induction s with
  | nil => rfl
  | cons c rest ih =>
    obtain ⟨other, later⟩ := not_or.mp (List.mem_cons.not.mp h)
    rw [universalNewlines.eq_def]
    dsimp only
    rw [if_neg (Ne.symm other), ih later]

theorem not_mem_universalNewlines (s : Str) : CR ∉ universalNewlines s := by
  induction s using universalNewlines.induct with
  | case1 => exact List.not_mem_nil
  | case2 =>
    rw [universalNewlines, if_pos rfl]
    decide
  | case3 more ih =>
    rw [universalNewlines, if_pos rfl]
    exact List.not_mem_cons_of_ne_of_not_mem (by decide) ih
  | case4 d more other ih =>
    rw [universalNewlines.eq_def]
    dsimp only
    rw [if_pos rfl, if_neg other]
    exact List.not_mem_cons_of_ne_of_not_mem (by decide) ih
  | case5 c rest other ih =>
    rw [universalNewlines.eq_def]
    dsimp only
    rw [if_neg other]
    exact List.not_mem_cons_of_ne_of_not_mem (Ne.symm other) ih

theorem universalNewlines_take (s : Str) (n : Nat) :
    universalNewlines ((universalNewlines s).take n) = (universalNewlines s).take n :=
  universalNewlines_of_not_mem fun h => not_mem_universalNewlines s (List.mem_of_mem_take h)

/-! ### Cutting a text -/

/-- What follows a text continues its last piece. -/
theorem split_append {α : Type} [DecidableEq α] (sep : α) (s t : List α) :
    ∃ before last first rest, split sep s = before ++ [last] ∧ split sep t = first :: rest ∧
      split sep (s ++ t) = before ++ (last ++ first) :: rest := by
  obtain ⟨first, rest, pieces⟩ := List.exists_cons_of_ne_nil (split_ne_nil sep t)
  induction s with
  | nil => exact ⟨[], [], first, rest, rfl, pieces, pieces⟩
  | cons c s ih =>
    obtain ⟨before, last, first', rest', cut, pieces', whole⟩ := ih
    by_cases separator : c = sep
    · refine ⟨[] :: before, last, first', rest', ?_, pieces', ?_⟩
      · rw [split, if_pos separator, cut]
        rfl
      · rw [List.cons_append, split, if_pos separator, whole]
        rfl
    · cases before with
      | nil =>
        refine ⟨[], c :: last, first', rest', ?_, pieces', ?_⟩
        · rw [split, if_neg separator, cut]
          rfl
        · rw [List.cons_append, split, if_neg separator, whole]
          rfl
      | cons line before =>
        refine ⟨(c :: line) :: before, last, first', rest', ?_, pieces', ?_⟩
        · rw [split, if_neg separator, cut]
          rfl
        · rw [List.cons_append, split, if_neg separator, whole]
          rfl

/-- The pieces of a cut text are those of the whole text, but for the last one, which the cut may
have shortened. -/
theorem split_take {α : Type} [DecidableEq α] (sep : α) (s : List α) (n : Nat) :
    ∃ before last tail rest, split sep (s.take n) = before ++ [last] ∧
      split sep s = before ++ (last ++ tail) :: rest := by
  obtain ⟨before, last, first, rest, cut, _, whole⟩ := split_append sep (s.take n) (s.drop n)
  rw [List.take_append_drop] at whole
  exact ⟨before, last, first, rest, cut, whole⟩

/-- Above its last line a cut text has the lines of the whole text. -/
theorem lineSpan_take {s : Str} {n startLine endLine : Nat}
    (inside : endLine < (split LF (s.take n)).length) :
    lineSpan (split LF (s.take n)) startLine endLine = lineSpan (split LF s) startLine endLine := by
  obtain ⟨before, last, tail, rest, cut, whole⟩ := split_take LF s n
  have above : endLine ≤ before.length := by
    rw [cut, List.length_append, List.length_singleton] at inside
    omega
  rw [lineSpan, lineSpan, cut, whole, List.take_append_of_le_length above,
    List.take_append_of_le_length above]

/-- A line of a cut text is the beginning of the same line of the whole text. -/
theorem line_of_take {s line : Str} {n index : Nat}
    (h : (split LF (s.take n))[index]? = some line) :
    ∃ full, (split LF s)[index]? = some full ∧ line <+: full := by
  obtain ⟨before, last, tail, rest, cut, whole⟩ := split_take LF s n
  rw [cut] at h
  rw [whole]
  by_cases above : index < before.length
  · rw [List.getElem?_append_left above] at h ⊢
    exact ⟨line, h, List.prefix_refl line⟩
  · rw [List.getElem?_append_right (Nat.not_lt.mp above)] at h ⊢
    rw [List.getElem?_singleton] at h
    split at h
    next here =>
      obtain rfl := Option.some.inj h
      rw [here]
      exact ⟨last ++ tail, rfl, List.prefix_append last tail⟩
    · cases h

end Python
