import ClaimCI.Python.Escaping

/-!
# Templates

Pages of lines that consist of fixed texts and of values, each put in by an escaping function. A
page has the lines of its template if no escaped value holds a line break.
-/

namespace Python

/-- A part of a line: the author's own text, or a value under an escaping. -/
inductive Fragment (ε : Type) where
  | fixed (s : Str)
  | hole (escaping : ε) (value : Str)

instance (ε : Type) : Coe String (Fragment ε) := ⟨fun s => .fixed (lit s)⟩

abbrev Page (ε : Type) := List (List (Fragment ε))

section Template

variable {ε : Type} (escape : ε → Str → Str)

def Fragment.text : Fragment ε → Str
  | fixed s => s
  | hole escaping value => escape escaping value

def lineText (line : List (Fragment ε)) : Str := line.flatMap (Fragment.text escape)

/-- `"\n".join(lines)`. -/
def pageText (page : Page ε) : Str := [LF].intercalate (page.map (lineText escape))

def lineCount (s : Str) : Nat := (split LF s).length

/-- The line feeds of the author's own text. -/
def Fragment.breaks : Fragment ε → Nat
  | fixed s => s.count LF
  | hole _ _ => 0

def lineBreaks (line : List (Fragment ε)) : Nat := (line.map Fragment.breaks).sum

/-- The value is put into the page under the escaping. -/
def HasHole (page : Page ε) (escaping : ε) (value : Str) : Prop :=
  ∃ line ∈ page, Fragment.hole escaping value ∈ line

/-! ### Counting lines -/

theorem lineCount_eq (s : Str) : lineCount s = s.count LF + 1 := by
  unfold lineCount
  induction s with
  | nil => rfl
  | cons c s ih =>
    rw [split]
    split
    next here =>
      rw [List.length_cons, ih, here, List.count_cons_self]
    next other =>
      have same : (c :: s).count LF = s.count LF := List.count_cons_of_ne other
      split
      next empty =>
        rw [empty] at ih
        cases ih
      next piece pieces some =>
        rw [some] at ih
        rw [same, ← ih]
        rfl

variable {escape}

theorem count_lineText {line : List (Fragment ε)}
    (quiet : ∀ e v, Fragment.hole e v ∈ line → LF ∉ escape e v) :
    (lineText escape line).count LF = lineBreaks line := by
  induction line with
  | nil => rfl
  | cons fragment line ih =>
    have rest := ih fun e v member => quiet e v (List.mem_cons_of_mem _ member)
    rw [lineText, List.flatMap_cons, List.count_append, lineBreaks, List.map_cons, List.sum_cons]
    refine congrArg₂ (· + ·) ?_ rest
    cases fragment with
    | fixed s => rfl
    | hole e v => exact List.count_eq_zero.mpr (quiet e v List.mem_cons_self)

theorem count_pageText {page : Page ε}
    (quiet : ∀ e v, HasHole page e v → LF ∉ escape e v) :
    (pageText escape page).count LF = (page.length - 1) + (page.map lineBreaks).sum := by
  unfold pageText
  induction page with
  | nil => rfl
  | cons line page ih =>
    have here := count_lineText fun e v member => quiet e v ⟨line, List.mem_cons_self, member⟩
    have rest := ih (by
      rintro e v ⟨other, member, inside⟩
      exact quiet e v ⟨other, List.mem_cons_of_mem _ member, inside⟩)
    cases page with
    | nil => simpa [lineBreaks] using here
    | cons next page =>
      have feed : [LF].count LF = 1 := rfl
      have whole : ((line :: next :: page).map lineBreaks).sum =
          lineBreaks line + ((next :: page).map lineBreaks).sum := rfl
      rw [List.map_cons, List.map_cons, List.intercalate_cons_cons, ← List.map_cons,
        List.count_append, List.count_append, here, rest, whole, feed]
      simp only [List.length_cons]
      omega

/-- A page whose values hold no line breaks has the lines of its template. -/
theorem lineCount_pageText {page : Page ε} (lines : page ≠ [])
    (quiet : ∀ e v, HasHole page e v → LF ∉ escape e v) :
    lineCount (pageText escape page) = page.length + (page.map lineBreaks).sum := by
  have some : 0 < page.length := List.length_pos_of_ne_nil lines
  rw [lineCount_eq, count_pageText quiet]
  omega

end Template

end Python
