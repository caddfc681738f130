import ClaimCI.Python.LineSpans

/-!
# `str.splitlines`

The lines of a text with their terminators, as `str.splitlines` finds them and as LF alone delimits
them. The two agree on the texts in which no other boundary stands before the end.
-/

namespace Python

/-- Where `str.splitlines` ends a line. -/
def isLineBoundary (c : CodePoint) : Bool :=
  (0x0A ≤ c.val && c.val ≤ 0x0D) || (0x1C ≤ c.val && c.val ≤ 0x1E) || c.val == 0x85 ||
    c.val == 0x2028 || c.val == 0x2029

/-- `text.splitlines(keepends=True)`. -/
def splitLines : Str → List Str
  | [] => []
  | [c] => [[c]]
  | c :: d :: rest =>
    if c = CR ∧ d = LF then [c, d] :: splitLines rest
    else if isLineBoundary c then [c] :: splitLines (d :: rest)
    else (splitLines (d :: rest)).modifyHead (c :: ·)

/-- The lines that LF delimits, with their terminators. -/
def lineTexts : Str → List Str
  | [] => []
  | [c] => [[c]]
  | c :: d :: rest =>
    if c = LF then [c] :: lineTexts (d :: rest)
    else (lineTexts (d :: rest)).modifyHead (c :: ·)

/-- No boundary other than LF stands before the end of the text. -/
def FeedsOnly (s : Str) : Prop := ∀ c ∈ s.dropLast, isLineBoundary c = true → c = LF

instance (s : Str) : Decidable (FeedsOnly s) := inferInstanceAs (Decidable (∀ c ∈ s.dropLast, _))

@[simp] theorem flatten_modifyHead_cons {c : CodePoint} {lines : List Str} (filled : lines ≠ []) :
    (lines.modifyHead (c :: ·)).flatten = c :: lines.flatten := by
  cases lines with
  | nil => exact absurd rfl filled
  | cons line lines => rfl

/-! ### LF-delimited lines -/

theorem lineTexts_ne_nil {s : Str} (filled : s ≠ []) : lineTexts s ≠ [] := by
  induction s using lineTexts.induct with
  | case1 => exact absurd rfl filled
  | case2 c => simp [lineTexts]
  | case3 d rest ih => simp [lineTexts]
  | case4 c d rest other ih =>
    rw [lineTexts, if_neg other, Ne, List.modifyHead_eq_nil_iff]
    exact ih (List.cons_ne_nil d rest)

theorem lineTexts_flatten (s : Str) : (lineTexts s).flatten = s := by
  induction s using lineTexts.induct with
  | case1 => rfl
  | case2 c => rfl
  | case3 d rest ih => rw [lineTexts, if_pos rfl, List.flatten_cons, ih, List.singleton_append]
  | case4 c d rest other ih =>
    rw [lineTexts, if_neg other, flatten_modifyHead_cons (lineTexts_ne_nil (List.cons_ne_nil d rest)),
      ih]

/-- A line feed ends a line. -/
theorem lineTexts_LF_cons (s : Str) : lineTexts (LF :: s) = [LF] :: lineTexts s := by
  cases s with
  | nil => rfl
  | cons d rest => rw [lineTexts, if_pos rfl]

/-- Any other character begins the line that follows it. -/
theorem lineTexts_cons {c : CodePoint} {s : Str} (other : c ≠ LF) (filled : s ≠ []) :
    lineTexts (c :: s) = (lineTexts s).modifyHead (c :: ·) := by
  cases s with
  | nil => exact absurd rfl filled
  | cons d rest => rw [lineTexts, if_neg other]

/-- The lines of a text, counted by its line feeds; a text that does not end with one has a further
line. -/
theorem lineTexts_length {s : Str} (filled : s ≠ []) :
    (lineTexts s).length = s.count LF + (if s.getLast? = some LF then 0 else 1) := by
  induction s using lineTexts.induct with
  | case1 => exact absurd rfl filled
  | case2 c =>
    by_cases feed : c = LF
    · simp [lineTexts, feed]
    · simp [lineTexts, feed]
  | case3 d rest ih =>
    rw [lineTexts, if_pos rfl, List.length_cons, ih (List.cons_ne_nil d rest),
      List.getLast?_cons_cons, List.count_cons_self]
    omega
  | case4 c d rest other ih =>
    rw [lineTexts, if_neg other, List.length_modifyHead, ih (List.cons_ne_nil d rest),
      List.getLast?_cons_cons, List.count_cons_of_ne other]

theorem ne_nil_of_mem_lineTexts {s line : Str} (member : line ∈ lineTexts s) : line ≠ [] := by
  induction s using lineTexts.induct generalizing line with
  | case1 => cases member
  | case2 c =>
    rw [lineTexts, List.mem_singleton] at member
    exact member ▸ List.cons_ne_nil c []
  | case3 d rest ih =>
    rw [lineTexts_LF_cons, List.mem_cons] at member
    rcases member with rfl | later
    · exact List.cons_ne_nil LF []
    · exact ih later
  | case4 c d rest other ih =>
    obtain ⟨first, lines, there⟩ :=
      List.exists_cons_of_ne_nil (lineTexts_ne_nil (List.cons_ne_nil d rest))
    rw [lineTexts_cons other (List.cons_ne_nil d rest), there] at member
    rcases List.mem_cons.mp member with rfl | later
    · exact List.cons_ne_nil c first
    · exact ih (there ▸ List.mem_cons_of_mem first later)

/-- What follows a text continues its last line, unless that line has ended. -/
theorem lineTexts_append {s : Str} (filled : s ≠ []) (t : Str) :
    ∃ before last tail rest, lineTexts s = before ++ [last] ∧ last ≠ [] ∧
      lineTexts (s ++ t) = before ++ (last ++ tail) :: rest ∧
      (s.getLast? ≠ some LF → t ≠ [] → tail ≠ []) := by
  -- the cases of `lineTexts`; the text behind continues the last line, unless that has ended
  induction s using lineTexts.induct with
  | case1 => exact absurd rfl filled
  | case2 c =>
    cases t with
    | nil => exact ⟨[], [c], [], [], rfl, List.cons_ne_nil c [], rfl, fun _ more => more⟩
    | cons d t =>
      by_cases feed : c = LF
      · refine ⟨[], [c], [], lineTexts (d :: t), rfl, List.cons_ne_nil c [], ?_, ?_⟩
        · rw [feed]
          exact lineTexts_LF_cons (d :: t)
        · exact fun unended => absurd (congrArg some feed) unended
      · obtain ⟨first, lines, there⟩ :=
          List.exists_cons_of_ne_nil (lineTexts_ne_nil (List.cons_ne_nil d t))
        refine ⟨[], [c], first, lines, rfl, List.cons_ne_nil c [], ?_, fun _ _ => ?_⟩
        · rw [List.singleton_append, lineTexts_cons feed (List.cons_ne_nil d t), there]
          rfl
        · exact ne_nil_of_mem_lineTexts (there ▸ List.mem_cons_self)
  | case3 d rest ih =>
    obtain ⟨before, last, tail, lines, cut, there, whole, more⟩ := ih (List.cons_ne_nil d rest)
    refine ⟨[LF] :: before, last, tail, lines, ?_, there, ?_, ?_⟩
    · rw [lineTexts_LF_cons, cut]
      rfl
    · rw [List.cons_append, lineTexts_LF_cons, whole]
      rfl
    · rwa [List.getLast?_cons_cons]
  -- the character belongs to the first line of the rest, which may be the last
  | case4 c d rest other ih =>
    obtain ⟨before, last, tail, lines, cut, there, whole, more⟩ := ih (List.cons_ne_nil d rest)
    have filled' : d :: rest ++ t ≠ [] := List.cons_ne_nil d (rest ++ t)
    rw [List.getLast?_cons_cons]
    cases before with
    | nil =>
      refine ⟨[], c :: last, tail, lines, ?_, List.cons_ne_nil c last, ?_, more⟩
      · rw [lineTexts_cons other (List.cons_ne_nil d rest), cut]
        rfl
      · rw [List.cons_append, lineTexts_cons other filled', whole]
        rfl
    | cons line before =>
      refine ⟨(c :: line) :: before, last, tail, lines, ?_, there, ?_, more⟩
      · rw [lineTexts_cons other (List.cons_ne_nil d rest), cut]
        rfl
      · rw [List.cons_append, lineTexts_cons other filled', whole]
        rfl

/-- The pieces between line feeds are the lines without their terminators, and one more piece after a
final terminator. -/
theorem split_eq_lineTexts (s : Str) :
    split LF s = (lineTexts s).map (fun line => line.takeWhile (· != LF)) ++
      (if s.getLast? = some LF ∨ s = [] then [[]] else []) := by
  induction s using lineTexts.induct with
  | case1 => rfl
  | case2 c =>
    by_cases feed : c = LF
    · rw [feed]
      rfl
    · simp [split, lineTexts, feed]
  | case3 d rest ih =>
    rw [split_sep_cons, ih, lineTexts_LF_cons, List.getLast?_cons_cons]
    simp
  | case4 c d rest other ih =>
    obtain ⟨first, lines, there⟩ :=
      List.exists_cons_of_ne_nil (lineTexts_ne_nil (List.cons_ne_nil d rest))
    obtain ⟨piece, pieces, cut, whole⟩ := split_cons_of_ne other (d :: rest)
    rw [cut, there, List.map_cons, List.cons_append] at ih
    obtain ⟨rfl, rfl⟩ := List.cons.inj ih
    -- a character that is no line feed is kept with the line it begins
    have kept : (c :: first).takeWhile (· != LF) = c :: first.takeWhile (· != LF) :=
      List.takeWhile_cons_of_pos (by simpa using other)
    rw [whole, lineTexts_cons other (List.cons_ne_nil d rest), there, List.getLast?_cons_cons,
      List.modifyHead_cons, List.map_cons, kept]
    simp

/-- A line without its terminator. -/
def lineContent (line : Str) : Str := line.takeWhile (· != LF)

/-- Every line has its terminator, but perhaps for the last one. -/
def Terminated : List Str → Prop
  | [] => True
  | [line] => line = lineContent line ∨ line = lineContent line ++ [LF]
  | line :: next :: lines => line = lineContent line ++ [LF] ∧ Terminated (next :: lines)

theorem Terminated.cons {line : Str} {lines : List Str} (ended : line = lineContent line ++ [LF])
    (later : Terminated lines) : Terminated (line :: lines) := by
  cases lines with
  | nil => exact Or.inr ended
  | cons next lines => exact ⟨ended, later⟩

theorem Terminated.drop {lines : List Str} (h : Terminated lines) (n : Nat) :
    Terminated (lines.drop n) := by
  induction n generalizing lines with
  | zero => exact h
  | succ n ih =>
    match lines, h with
    | [], h => exact h
    | [_], _ => exact @ih [] trivial
    | _ :: next :: lines, h => exact ih h.2

theorem Terminated.take {lines : List Str} (h : Terminated lines) (n : Nat) :
    Terminated (lines.take n) := by
  induction n generalizing lines with
  | zero => exact trivial
  | succ n ih =>
    match lines, h with
    | [], h => exact h
    | [_], h => simpa using h
    | _ :: next :: lines, h => exact (ih h.2).cons h.1

theorem lineTexts_terminated (s : Str) : Terminated (lineTexts s) := by
  induction s using lineTexts.induct with
  | case1 => exact trivial
  | case2 c =>
    by_cases feed : c = LF
    · rw [feed]
      exact Or.inr rfl
    · exact Or.inl (by simp [lineContent, feed])
  | case3 d rest ih =>
    rw [lineTexts_LF_cons]
    exact ih.cons rfl
  | case4 c d rest other ih =>
    obtain ⟨first, lines, there⟩ :=
      List.exists_cons_of_ne_nil (lineTexts_ne_nil (List.cons_ne_nil d rest))
    have kept : lineContent (c :: first) = c :: lineContent first :=
      List.takeWhile_cons_of_pos (by simpa using other)
    rw [lineTexts_cons other (List.cons_ne_nil d rest), there, List.modifyHead_cons]
    rw [there] at ih
    cases lines with
    | nil =>
      rw [Terminated, kept, List.cons_append]
      exact ih.imp (congrArg (c :: ·)) (congrArg (c :: ·))
    | cons next lines =>
      rw [Terminated, kept, List.cons_append]
      exact ⟨congrArg (c :: ·) ih.1, ih.2⟩

/-- Lines with their terminators, and what joining their contents with LF leaves out: at most the last
terminator. -/
theorem Terminated.flatten_eq {lines : List Str} (h : Terminated lines) :
    ∃ tail, (tail = [] ∨ tail = [LF]) ∧ lines.flatten = joinLines (lines.map lineContent) ++ tail := by
  induction lines with
  | nil => exact ⟨[], Or.inl rfl, rfl⟩
  | cons line lines ih =>
    cases lines with
    | nil =>
      rcases h with open' | ended
      · refine ⟨[], Or.inl rfl, ?_⟩
        simpa [joinLines] using open'
      · refine ⟨[LF], Or.inr rfl, ?_⟩
        simpa [joinLines] using ended
    | cons next lines =>
      obtain ⟨tail, short, whole⟩ := ih h.2
      refine ⟨tail, short, ?_⟩
      -- the parts between are closed by line feeds, the last one may be open
      have joined : joinLines ((line :: next :: lines).map lineContent) =
          lineContent line ++ LF :: joinLines ((next :: lines).map lineContent) := by
        simp [joinLines]
      calc (line :: next :: lines).flatten
        _ = line ++ (next :: lines).flatten := List.flatten_cons
        _ = (lineContent line ++ [LF]) ++ (joinLines ((next :: lines).map lineContent) ++ tail) := by
          rw [← h.1, whole]
        _ = joinLines ((line :: next :: lines).map lineContent) ++ tail := by
          rw [joined]
          simp

/-- The lines of a span, with their terminators, are what a quote of the span joins. -/
theorem flatten_lineSpan {s : Str} {startLine endLine : Nat}
    (inside : endLine ≤ (lineTexts s).length) :
    ∃ tail, (tail = [] ∨ tail = [LF]) ∧ (lineSpan (lineTexts s) startLine endLine).flatten =
      joinLines (lineSpan (split LF s) startLine endLine) ++ tail := by
  obtain ⟨tail, short, whole⟩ :=
    (((lineTexts_terminated s).take endLine).drop (startLine - 1)).flatten_eq
  refine ⟨tail, short, ?_⟩
  have shown : (split LF s).take endLine = ((lineTexts s).take endLine).map lineContent := by
    rw [split_eq_lineTexts, List.take_append_of_le_length (by simpa using inside), List.map_take]
    rfl
  rw [lineSpan, lineSpan, shown, ← List.map_drop]
  exact whole

/-! ### The two kinds of lines -/

theorem splitLines_ne_nil {s : Str} (filled : s ≠ []) : splitLines s ≠ [] := by
  induction s using splitLines.induct with
  | case1 => exact absurd rfl filled
  | case2 c => simp [splitLines]
  | case3 c d rest pair ih => simp [splitLines, pair]
  | case4 c d rest pair boundary ih => simp [splitLines, pair, boundary]
  | case5 c d rest pair boundary ih =>
    rw [splitLines, if_neg pair, if_neg boundary, Ne, List.modifyHead_eq_nil_iff]
    exact ih (List.cons_ne_nil d rest)

theorem splitLines_flatten (s : Str) : (splitLines s).flatten = s := by
  induction s using splitLines.induct with
  | case1 => rfl
  | case2 c => rfl
  | case3 c d rest pair ih =>
    rw [splitLines, if_pos pair, List.flatten_cons, ih]
    rfl
  | case4 c d rest pair boundary ih =>
    rw [splitLines, if_neg pair, if_pos boundary, List.flatten_cons, ih, List.singleton_append]
  | case5 c d rest pair boundary ih =>
    rw [splitLines, if_neg pair, if_neg boundary,
      flatten_modifyHead_cons (splitLines_ne_nil (List.cons_ne_nil d rest)), ih]

/-- A text that ends with a boundary is cut off there. -/
theorem splitLines_append {s t : Str} {c : CodePoint} (ends : s.getLast? = some c)
    (boundary : isLineBoundary c = true) (notPair : ¬ (c = CR ∧ t.head? = some LF)) :
    splitLines (s ++ t) = splitLines s ++ splitLines t := by
  -- the cases of `splitLines`; the boundary at the end is not the CR of a pair
  induction s using splitLines.induct with
  | case1 => cases ends
  | case2 d =>
    have same : d = c := Option.some.inj ends
    subst same
    cases t with
    | nil => rfl
    | cons e t =>
      have apart : ¬ (d = CR ∧ e = LF) := fun pair => notPair ⟨pair.1, congrArg some pair.2⟩
      rw [List.singleton_append, splitLines.eq_def (d :: e :: t)]
      dsimp only
      rw [if_neg apart, if_pos boundary]
      rfl
  | case3 d e rest pair ih =>
    rw [List.cons_append, List.cons_append, splitLines, if_pos pair, splitLines.eq_def (d :: e :: rest)]
    dsimp only
    rw [if_pos pair]
    cases rest with
    | nil => rfl
    | cons f rest => rw [ih (by simpa using ends), List.cons_append]
  | case4 d e rest pair here ih =>
    rw [List.cons_append, List.cons_append, splitLines, if_neg pair, if_pos here,
      splitLines.eq_def (d :: e :: rest)]
    dsimp only
    rw [if_neg pair, if_pos here, ← List.cons_append, ih (by simpa using ends), List.cons_append]
  | case5 d e rest pair here ih =>
    obtain ⟨first, lines, there⟩ :=
      List.exists_cons_of_ne_nil (splitLines_ne_nil (List.cons_ne_nil e rest))
    rw [List.cons_append, List.cons_append, splitLines, if_neg pair, if_neg here,
      splitLines.eq_def (d :: e :: rest)]
    dsimp only
    rw [if_neg pair, if_neg here, ← List.cons_append, ih (by simpa using ends), there]
    rfl

/-- No line is empty. -/
theorem ne_nil_of_mem_splitLines {s line : Str} (member : line ∈ splitLines s) : line ≠ [] := by
  induction s using splitLines.induct generalizing line with
  | case1 => cases member
  | case2 c =>
    rw [splitLines, List.mem_singleton] at member
    exact member ▸ List.cons_ne_nil c []
  | case3 c d rest pair ih =>
    rw [splitLines, if_pos pair, List.mem_cons] at member
    rcases member with rfl | later
    · exact List.cons_ne_nil c [d]
    · exact ih later
  | case4 c d rest pair boundary ih =>
    rw [splitLines, if_neg pair, if_pos boundary, List.mem_cons] at member
    rcases member with rfl | later
    · exact List.cons_ne_nil c []
    · exact ih later
  | case5 c d rest pair boundary ih =>
    obtain ⟨first, lines, there⟩ :=
      List.exists_cons_of_ne_nil (splitLines_ne_nil (List.cons_ne_nil d rest))
    rw [splitLines, if_neg pair, if_neg boundary, there] at member
    rcases List.mem_cons.mp member with rfl | later
    · exact List.cons_ne_nil c first
    · exact ih (there ▸ List.mem_cons_of_mem first later)

/-- The first other boundary before the end. -/
theorem exists_boundary_of_not_feedsOnly {s : Str} (h : ¬ FeedsOnly s) :
    ∃ before c rest, s = before ++ [c] ++ rest ∧ FeedsOnly (before ++ [c]) ∧
      isLineBoundary c = true ∧ c ≠ LF ∧ rest ≠ [] := by
  have filled : s ≠ [] := by
    rintro rfl
    exact h fun c member => nomatch member
  have ended := List.dropLast_append_getLast filled
  -- the first boundary in front of the last character that is no line feed
  cases found : s.dropLast.find? (fun c => isLineBoundary c && c != LF) with
  | none =>
    have clean := List.find?_eq_none.mp found
    refine absurd (fun c member boundary => ?_) h
    by_contra other
    exact clean c member (by simp [boundary, other])
  | some c =>
    obtain ⟨misplaced, before, rest, cut, clean⟩ := List.find?_eq_some_iff_append.mp found
    obtain ⟨boundary, other⟩ : isLineBoundary c = true ∧ c ≠ LF := by simpa using misplaced
    refine ⟨before, c, rest ++ [s.getLast filled], ?_, fun d member here => ?_, boundary, other, ?_⟩
    · calc s
        _ = s.dropLast ++ [s.getLast filled] := ended.symm
        _ = before ++ [c] ++ (rest ++ [s.getLast filled]) := by simp [cut]
    · rw [List.dropLast_concat] at member
      by_contra feed
      have refused := clean d member
      simp [here, feed] at refused
    · exact List.append_ne_nil_of_right_ne_nil rest (List.cons_ne_nil _ [])

theorem FeedsOnly.tail {c d : CodePoint} {rest : Str} (feeds : FeedsOnly (c :: d :: rest)) :
    FeedsOnly (d :: rest) :=
  fun e member => feeds e (List.mem_cons_of_mem c member)

theorem FeedsOnly.head {c d : CodePoint} {rest : Str} (feeds : FeedsOnly (c :: d :: rest)) :
    isLineBoundary c = true → c = LF :=
  feeds c List.mem_cons_self

/-- A text without other boundaries has the same lines either way. -/
theorem splitLines_eq_lineTexts {s : Str} (feeds : FeedsOnly s) : splitLines s = lineTexts s := by
  induction s using lineTexts.induct with
  | case1 => rfl
  | case2 c => rfl
  | case3 d rest ih =>
    have notReturn : ¬ (LF = CR ∧ d = LF) := fun pair => absurd pair.1 (by decide)
    rw [splitLines, if_neg notReturn, if_pos (by decide), lineTexts_LF_cons, ih feeds.tail]
  | case4 c d rest other ih =>
    have plain : ¬ isLineBoundary c = true := fun boundary => other (feeds.head boundary)
    have notReturn : ¬ (c = CR ∧ d = LF) := fun pair => plain (pair.1 ▸ by decide)
    rw [splitLines, if_neg notReturn, if_neg plain, lineTexts, if_neg other, ih feeds.tail]

end Python
