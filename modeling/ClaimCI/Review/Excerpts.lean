import ClaimCI.Review.EvidenceRouting

/-!
# Excerpts

The part of a file that an evidence reference shows, with the lines it covers, and when these are the
lines that a quote of the same span resolves to.
-/

open Python

namespace ClaimCI.Review

/-- A cut of a file: its text and its first and last line. -/
structure Excerpt where
  text : Str
  startLine : Nat
  endLine : Nat
  deriving DecidableEq

/-- `_line_span`, from the first line. -/
def lastLineOf (excerpt : Str) : Nat :=
  max 1 (excerpt.count LF + (if excerpt.getLast? = some LF then 0 else 1))

/-- A cut that starts with the file. -/
def leadingExcerpt (text : Str) : Excerpt := ⟨text, 1, lastLineOf text⟩

/-! ### Changed regions -/

/-- The number of leading elements that two lists share. -/
def commonPrefix : List Str → List Str → Nat
  | a :: as, b :: bs => if a = b then commonPrefix as bs + 1 else 0
  | _, _ => 0

/-- The changed lines of the head: past the common prefix, and before the common suffix of what
follows it. A file without a base is all changed. -/
def changeBounds (headLines : List Str) : Option (List Str) → Nat × Nat
  | none => (0, headLines.length)
  | some baseLines =>
    let shared := commonPrefix headLines baseLines
    let trailing := commonPrefix (headLines.drop shared).reverse (baseLines.drop shared).reverse
    (shared, headLines.length - trailing)

def charsOfLines (lines : List Str) : Nat := (lines.map List.length).sum

/-- How many leading lines fit into the limit. -/
def fitting (limit : Nat) : Nat → List Str → Nat
  | _, [] => 0
  | used, line :: lines =>
    if used + line.length ≤ limit then fitting limit (used + line.length) lines + 1 else 0

/-- The line before the window, while it fits. -/
def widenLeft (lines : List Str) (limit left used : Nat) : Nat × Nat :=
  let length := (lines.getD (left - 1) []).length
  if 0 < left ∧ used + length ≤ limit then (left - 1, used + length) else (left, used)

/-- The line after the window, while it fits. -/
def widenRight (lines : List Str) (limit right used : Nat) : Nat × Nat :=
  let length := (lines.getD right []).length
  if right < lines.length ∧ used + length ≤ limit then (right + 1, used + length) else (right, used)

/-- Take lines on both sides in turn until neither fits. -/
def widen (lines : List Str) (limit : Nat) : Nat → Nat → Nat → Nat → Nat × Nat
  | 0, left, right, _ => (left, right)
  | fuel + 1, left, right, used =>
    let (left', used') := widenLeft lines limit left used
    let (right', used'') := widenRight lines limit right used'
    if left' = left ∧ right' = right then (left, right) else widen lines limit fuel left' right' used''

/-- `_changed_line_window`. -/
def changedLineWindow (headText : Str) (baseText : Option Str) (charLimit : Nat) : Option Excerpt :=
  let headLines := splitLines headText
  let (start, stop) := changeBounds headLines (baseText.map splitLines)
  if charLimit = 0 ∨ headText = [] ∨ stop ≤ start ∨
      charLimit < (headLines.getD start []).length then none
  else
    let target := (headLines.take stop).drop start
    let (left, right) :=
      if charLimit < charsOfLines target then (start, start + fitting charLimit 0 target)
      else widen headLines charLimit headLines.length start stop (charsOfLines target)
    let excerpt := ((headLines.take right).drop left).flatten
    if right ≤ left ∨ excerpt = [] ∨ charLimit < excerpt.length then none
    else some ⟨excerpt, left + 1, right⟩

/-! ### What a window holds -/

theorem commonPrefix_le_left (as bs : List Str) : commonPrefix as bs ≤ as.length := by
  induction as generalizing bs with
  | nil => exact Nat.zero_le _
  | cons a as ih =>
    cases bs with
    | nil => exact Nat.zero_le _
    | cons b bs =>
      rw [commonPrefix]
      split
      · exact Nat.succ_le_succ (ih bs)
      · exact Nat.zero_le _

/-- The shared elements are the same. -/
theorem take_commonPrefix (as bs : List Str) :
    as.take (commonPrefix as bs) = bs.take (commonPrefix as bs) := by
  induction as generalizing bs with
  | nil => cases bs <;> rfl
  | cons a as ih =>
    cases bs with
    | nil => rfl
    | cons b bs =>
      rw [commonPrefix]
      split
      next same => rw [List.take_succ_cons, List.take_succ_cons, ih bs, same]
      · rfl

/-- The elements past the shared ones differ. -/
theorem commonPrefix_maximal {as bs : List Str} {a b : Str}
    (left : as[commonPrefix as bs]? = some a) (right : bs[commonPrefix as bs]? = some b) :
    a ≠ b := by
  induction as generalizing bs with
  | nil => simp at left
  | cons x as ih =>
    cases bs with
    | nil => simp at right
    | cons y bs =>
      rw [commonPrefix] at left right
      by_cases same : x = y
      · rw [if_pos same, List.getElem?_cons_succ] at left right
        exact ih left right
      · rw [if_neg same, List.getElem?_cons_zero] at left right
        exact fun equal => same (by rw [Option.some.inj left, Option.some.inj right, equal])

theorem changeBounds_le (headLines : List Str) (baseLines : Option (List Str)) :
    (changeBounds headLines baseLines).2 ≤ headLines.length := by
  cases baseLines with
  | none => exact Nat.le_refl _
  | some baseLines => exact Nat.sub_le _ _

theorem fitting_le (limit used : Nat) (lines : List Str) : fitting limit used lines ≤ lines.length := by
  induction lines generalizing used with
  | nil => exact Nat.le_refl 0
  | cons line lines ih =>
    rw [fitting]
    split
    · exact Nat.succ_le_succ (ih _)
    · exact Nat.zero_le _

theorem widenLeft_le (lines : List Str) (limit left used : Nat) :
    (widenLeft lines limit left used).1 ≤ left := by
  rw [widenLeft]
  split
  · exact Nat.sub_le left 1
  · exact Nat.le_refl left

theorem widenRight_le {lines : List Str} {right : Nat} (limit used : Nat)
    (inside : right ≤ lines.length) :
    right ≤ (widenRight lines limit right used).1 ∧
      (widenRight lines limit right used).1 ≤ lines.length := by
  rw [widenRight]
  split
  next room => exact ⟨Nat.le_succ right, room.1⟩
  · exact ⟨Nat.le_refl right, inside⟩

/-- A window only grows, and stays in the file. -/
theorem widen_spec {lines : List Str} (limit fuel : Nat) {left right used : Nat}
    (inside : right ≤ lines.length) :
    (widen lines limit fuel left right used).1 ≤ left ∧
      right ≤ (widen lines limit fuel left right used).2 ∧
      (widen lines limit fuel left right used).2 ≤ lines.length := by
  induction fuel generalizing left right used with
  | zero => exact ⟨Nat.le_refl left, Nat.le_refl right, inside⟩
  | succ fuel ih =>
    have lower := widenLeft_le lines limit left used
    have upper := widenRight_le limit (widenLeft lines limit left used).2 inside
    rw [widen]
    dsimp only
    split
    · exact ⟨Nat.le_refl left, Nat.le_refl right, inside⟩
    · obtain ⟨grows, further, inside'⟩ :=
        @ih _ _ (widenRight lines limit right (widenLeft lines limit left used).2).2 upper.2
      exact ⟨grows.trans lower, upper.1.trans further, inside'⟩

/-- The lines of a window are lines of the head, and one of them is changed. -/
theorem changedLineWindow_some {headText : Str} {baseText : Option Str} {charLimit : Nat}
    {window : Excerpt} (h : changedLineWindow headText baseText charLimit = some window) :
    1 ≤ window.startLine ∧ window.startLine ≤ window.endLine ∧
      window.endLine ≤ (splitLines headText).length ∧
      window.text = (lineSpan (splitLines headText) window.startLine window.endLine).flatten ∧
      window.text ≠ [] ∧ window.text.length ≤ charLimit ∧
      ∃ index, window.startLine ≤ index + 1 ∧ index + 1 ≤ window.endLine ∧
        (changeBounds (splitLines headText) (baseText.map splitLines)).1 ≤ index ∧
        index < (changeBounds (splitLines headText) (baseText.map splitLines)).2 := by
  rw [changedLineWindow] at h
  generalize bounded : changeBounds (splitLines headText) (baseText.map splitLines) = bounds at h ⊢
  have inside : bounds.2 ≤ (splitLines headText).length :=
    bounded ▸ changeBounds_le (splitLines headText) (baseText.map splitLines)
  obtain ⟨start, stop⟩ := bounds
  dsimp only at h inside ⊢
  split at h
  · cases h
  next open' =>
    obtain ⟨-, -, changed, fits⟩ : charLimit ≠ 0 ∧ headText ≠ [] ∧ start < stop ∧
        ((splitLines headText).getD start []).length ≤ charLimit := by
      simpa only [not_or, Nat.not_le, Nat.not_lt, ne_eq] using open'
    generalize sized : (if charLimit < charsOfLines (((splitLines headText).take stop).drop start)
      then (start, start + fitting charLimit 0 (((splitLines headText).take stop).drop start))
      else widen (splitLines headText) charLimit (splitLines headText).length start stop
        (charsOfLines (((splitLines headText).take stop).drop start))) = ends at h
    -- the window lies inside the region of changed lines
    have spans : ends.1 ≤ start ∧ start < ends.2 ∧ ends.2 ≤ (splitLines headText).length := by
      split at sized
      · -- The region is too long: its leading lines that fit, of which the first is one.
        rw [← sized]
        have most := fitting_le charLimit 0 (((splitLines headText).take stop).drop start)
        have length : (((splitLines headText).take stop).drop start).length = stop - start := by
          rw [List.length_drop, List.length_take, Nat.min_eq_left inside]
        have first : 1 ≤ fitting charLimit 0 (((splitLines headText).take stop).drop start) := by
          obtain ⟨line, lines, there⟩ := List.exists_cons_of_length_pos
            (show 0 < (((splitLines headText).take stop).drop start).length by omega)
          have named : (splitLines headText).getD start [] = line := by
            have same := congrArg (·[0]?) there
            rw [List.getElem?_drop, List.getElem?_take_of_lt (by omega)] at same
            rw [List.getD_eq_getElem?_getD, ← Nat.add_zero start, same]
            rfl
          rw [there, fitting, Nat.zero_add, if_pos (named ▸ fits)]
          exact Nat.le_add_left 1 _
        dsimp only
        omega
      · rw [← sized]
        obtain ⟨lower, upper, inside'⟩ := @widen_spec (splitLines headText) charLimit
          (splitLines headText).length start stop
          (charsOfLines (((splitLines headText).take stop).drop start)) inside
        exact ⟨lower, Nat.lt_of_lt_of_le changed upper, inside'⟩
    obtain ⟨left, right⟩ := ends
    dsimp only at h spans
    split at h
    · cases h
    next shown =>
      obtain ⟨-, filled, short⟩ : left < right ∧
          (((splitLines headText).take right).drop left).flatten ≠ [] ∧
          (((splitLines headText).take right).drop left).flatten.length ≤ charLimit := by
        simpa only [not_or, Nat.not_le, Nat.not_lt, ne_eq] using shown
      obtain rfl := Option.some.inj h
      exact ⟨Nat.le_add_left 1 left, show left + 1 ≤ right by omega, spans.2.2, rfl, filled, short,
        start, Nat.succ_le_succ spans.1, spans.2.1, Nat.le_refl start, changed⟩

/-! ### Exact excerpts -/

/-- The excerpt is the LF-delimited lines of its span, with their terminators. -/
def Excerpt.IsExact (excerpt : Excerpt) (text : Str) : Prop :=
  1 ≤ excerpt.startLine ∧ excerpt.startLine ≤ excerpt.endLine ∧
    excerpt.endLine ≤ (lineTexts text).length ∧
    excerpt.text = (lineSpan (lineTexts text) excerpt.startLine excerpt.endLine).flatten

/-- The excerpt starts with the file, and ends inside the last line of its span or with it. -/
def Excerpt.IsLeading (excerpt : Excerpt) (text : Str) : Prop :=
  excerpt.startLine = 1 ∧ 1 ≤ excerpt.endLine ∧
    ∃ shown hidden, shown ≠ [] ∧ (lineTexts text)[excerpt.endLine - 1]? = some (shown ++ hidden) ∧
      excerpt.text = ((lineTexts text).take (excerpt.endLine - 1)).flatten ++ shown

/-- A quote of the span of an exact excerpt is its text, but for a last terminator. -/
theorem Excerpt.IsExact.quoted {excerpt : Excerpt} {text : Str} (exactly : excerpt.IsExact text) :
    ∃ tail, (tail = [] ∨ tail = [LF]) ∧ excerpt.text =
      joinLines (lineSpan (split LF text) excerpt.startLine excerpt.endLine) ++ tail := by
  obtain ⟨-, -, inside, cut⟩ := exactly
  rw [cut]
  exact flatten_lineSpan inside

theorem lastLineOf_eq {text : Str} (filled : text ≠ []) :
    lastLineOf text = (lineTexts text).length := by
  rw [lastLineOf, ← lineTexts_length filled]
  exact Nat.max_eq_right (List.length_pos_iff.mpr (lineTexts_ne_nil filled))

theorem leadingExcerpt_exact {text : Str} (filled : text ≠ []) :
    (leadingExcerpt text).IsExact text := by
  have some : 1 ≤ (lineTexts text).length := List.length_pos_iff.mpr (lineTexts_ne_nil filled)
  refine ⟨Nat.le_refl 1, ?_, ?_, ?_⟩
  · exact Nat.le_max_left 1 _
  · exact (lastLineOf_eq filled).le
  · rw [leadingExcerpt, lastLineOf_eq filled, lineSpan, List.take_length]
    exact (lineTexts_flatten text).symm

theorem leadingExcerpt_leading {text : Str} {n : Nat} (filled : text.take n ≠ []) :
    (leadingExcerpt (text.take n)).IsLeading text := by
  obtain ⟨before, last, tail, rest, cut, shown, whole, -⟩ := lineTexts_append filled (text.drop n)
  rw [List.take_append_drop] at whole
  have lines : lastLineOf (text.take n) = before.length + 1 := by
    rw [lastLineOf_eq filled, cut, List.length_append, List.length_singleton]
  refine ⟨rfl, Nat.le_max_left 1 _, last, tail, shown, ?_, ?_⟩
  · rw [leadingExcerpt, lines, Nat.add_sub_cancel, whole, List.getElem?_append_right (Nat.le_refl _),
      Nat.sub_self]
    rfl
  · have start := lineTexts_flatten (text.take n)
    rw [cut, List.flatten_append, List.flatten_singleton] at start
    rw [leadingExcerpt, lines, Nat.add_sub_cancel, whole, List.take_left, start]

/-- In a file that only line feeds delimit, a changed region is exact. -/
theorem changedLineWindow_exact {headText : Str} {baseText : Option Str} {charLimit : Nat}
    {window : Excerpt} (feeds : FeedsOnly headText)
    (h : changedLineWindow headText baseText charLimit = some window) : window.IsExact headText := by
  obtain ⟨first, ordered, inside, cut, -, -, -⟩ := changedLineWindow_some h
  rw [splitLines_eq_lineTexts feeds] at inside cut
  exact ⟨first, ordered, inside, cut⟩

/-- All lines fit when the limit has room for them, and no line after them does when it has no more. -/
theorem fitting_append {limit used : Nat} {lines : List Str} {next : Str} {rest : List Str}
    (full : used + charsOfLines lines = limit) (filled : next ≠ []) :
    fitting limit used (lines ++ next :: rest) = lines.length := by
  induction lines generalizing used with
  | nil =>
    have length := List.length_pos_iff.mpr filled
    simp only [charsOfLines, List.map_nil, List.sum_nil, Nat.add_zero] at full
    rw [List.nil_append, fitting, if_neg (by omega)]
    rfl
  | cons line lines ih =>
    simp only [charsOfLines, List.map_cons, List.sum_cons] at full
    rw [List.cons_append, fitting, if_pos (by omega), ih (by rw [charsOfLines]; omega)]
    rfl

theorem length_flatten_eq (lines : List Str) : lines.flatten.length = charsOfLines lines :=
  List.length_flatten

/-- Another boundary before the end misplaces a line number: in a new file, the region that ends with
that boundary. -/
theorem exists_misplaced_window {before rest : Str} {c : CodePoint}
    (feeds : FeedsOnly (before ++ [c])) (boundary : isLineBoundary c = true) (other : c ≠ LF)
    (notReturn : c ≠ CR) (filled : rest ≠ []) :
    ∃ charLimit window, changedLineWindow (before ++ [c] ++ rest) none charLimit = some window ∧
      ¬ window.IsExact (before ++ [c] ++ rest) := by
  have ends : (before ++ [c]).getLast? = some c := List.getLast?_concat
  have cut : splitLines (before ++ [c] ++ rest) = lineTexts (before ++ [c]) ++ splitLines rest := by
    rw [splitLines_append ends boundary fun pair => notReturn pair.1, splitLines_eq_lineTexts feeds]
  have nonempty : before ++ [c] ≠ [] := List.append_ne_nil_of_right_ne_nil before (List.cons_ne_nil c [])
  obtain ⟨next, later, there⟩ := List.exists_cons_of_ne_nil (splitLines_ne_nil filled)
  have nextFilled : next ≠ [] := ne_nil_of_mem_splitLines (there ▸ List.mem_cons_self)
  have chars : charsOfLines (lineTexts (before ++ [c])) = (before ++ [c]).length := by
    rw [← length_flatten_eq, lineTexts_flatten]
  obtain ⟨first, lines, here⟩ := List.exists_cons_of_ne_nil (lineTexts_ne_nil nonempty)
  refine ⟨(before ++ [c]).length, ⟨before ++ [c], 1, (lineTexts (before ++ [c])).length⟩, ?_, ?_⟩
  -- the first line does not fit, so the window is cut inside it
  · have firstFits : first.length ≤ (before ++ [c]).length := by
      rw [← chars, here, charsOfLines, List.map_cons, List.sum_cons]
      exact Nat.le_add_right _ _
    have tooLong : (before ++ [c]).length < charsOfLines (splitLines (before ++ [c] ++ rest)) := by
      have longer := List.length_pos_iff.mpr filled
      rw [← length_flatten_eq, splitLines_flatten]
      simp only [List.length_append]
      omega
    have shown : ¬ ((before ++ [c]).length = 0 ∨ before ++ [c] ++ rest = [] ∨
        (splitLines (before ++ [c] ++ rest)).length ≤ 0 ∨
        (before ++ [c]).length < ((splitLines (before ++ [c] ++ rest)).getD 0 []).length) := by
      rw [cut, here, List.cons_append, List.getD_cons_zero, List.length_cons]
      simp only [List.append_eq_nil_iff, filled, and_false, false_or, not_or, Nat.not_lt]
      exact ⟨by simp, by omega, firstFits⟩
    have fits : fitting (before ++ [c]).length 0 (lineTexts (before ++ [c]) ++ next :: later) =
        (lineTexts (before ++ [c])).length := fitting_append (by rw [Nat.zero_add, chars]) nextFilled
    have taken : (lineTexts (before ++ [c]) ++ next :: later).take
        (lineTexts (before ++ [c])).length = lineTexts (before ++ [c]) := List.take_left
    have visible : ¬ ((lineTexts (before ++ [c])).length ≤ 0 ∨ before ++ [c] = [] ∨
        (before ++ [c]).length < (before ++ [c]).length) := by
      rw [here, List.length_cons]
      simp
    rw [changedLineWindow, Option.map_none, changeBounds]
    dsimp only
    rw [if_neg shown, List.take_length, List.drop_zero, if_pos tooLong, cut, there, fits]
    dsimp only
    rw [Nat.zero_add, taken, List.drop_zero, lineTexts_flatten, if_neg visible]
  · -- The LF-delimited line goes on after the boundary.
    obtain ⟨above, last, tail, below, lines', -, whole, more⟩ := lineTexts_append nonempty rest
    rintro ⟨-, -, -, same⟩
    have unended : (before ++ [c]).getLast? ≠ some LF := by
      rw [ends]
      exact fun feed => other (Option.some.inj feed)
    have count : (lineTexts (before ++ [c])).length = above.length + 1 := by
      rw [lines', List.length_append, List.length_singleton]
    have start : before ++ [c] = above.flatten ++ last := by
      rw [← lineTexts_flatten (before ++ [c]), lines', List.flatten_append, List.flatten_singleton]
    have spanned : (lineSpan (lineTexts (before ++ [c] ++ rest)) 1 (above.length + 1)).flatten =
        above.flatten ++ last ++ tail := by
      rw [lineSpan, whole, List.take_length_add_append]
      simp
    dsimp only at same
    rw [count, spanned, start] at same
    exact more unended filled (List.append_right_eq_self.mp same.symm)

/-- The changed regions of a file are exact, whatever the base and the limit, exactly when no boundary
but LF stands before its end. -/
theorem changedLineWindows_exact_iff {headText : Str} (normalized : CR ∉ headText) :
    (∀ baseText charLimit window, changedLineWindow headText baseText charLimit = some window →
      window.IsExact headText) ↔ FeedsOnly headText := by
  constructor
  · intro exactly
    by_contra misplaced
    obtain ⟨before, c, rest, rfl, feeds, boundary, other, filled⟩ :=
      exists_boundary_of_not_feedsOnly misplaced
    have notReturn : c ≠ CR := by
      rintro rfl
      exact normalized (by simp)
    obtain ⟨charLimit, window, issued, wrong⟩ :=
      exists_misplaced_window feeds boundary other notReturn filled
    exact wrong (exactly none charLimit window issued)
  · exact fun feeds baseText charLimit window issued => changedLineWindow_exact feeds issued

end ClaimCI.Review
