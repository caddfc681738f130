import ClaimCI.Python.Text

/-!
# Escaping

Replacing characters by entities and line breaks by a word: what is left of the original text.
-/

namespace Python

/-- `s.replace(old, new)` for one character. -/
def replaceChar (old : CodePoint) (new s : Str) : Str :=
  s.flatMap fun c => if c = old then new else [c]

/-- `s.replace(old, new)` for two characters. -/
def replacePair (first second : CodePoint) (new : Str) : Str → Str
  | [] => []
  | [c] => [c]
  | c :: d :: rest =>
    if c = first ∧ d = second then new ++ replacePair first second new rest
    else c :: replacePair first second new (d :: rest)

/-- One replacement after the other. -/
def replaceAll (entities : List (CodePoint × Str)) (s : Str) : Str :=
  entities.foldl (fun text entity => replaceChar entity.1 entity.2 text) s

/-- The replacements of `html.escape`. -/
def htmlEntities : Bool → List (CodePoint × Str)
  | false => [(0x26, "&amp;"), (0x3C, "&lt;"), (0x3E, "&gt;")]
  | true => [(0x26, "&amp;"), (0x3C, "&lt;"), (0x3E, "&gt;"), (0x22, "&quot;"), (0x27, "&#x27;")]

def htmlEscape (quote : Bool) (s : Str) : Str := replaceAll (htmlEntities quote) s

/-- The word for a line break. -/
def BREAK : Str := "<br>"

/-- `s.replace("\r\n", "<br>").replace("\r", "<br>").replace("\n", "<br>")`. -/
def replaceBreaks (s : Str) : Str :=
  replaceChar LF BREAK (replaceChar CR BREAK (replacePair CR LF BREAK s))

/-! ### Entities -/

theorem replaceChar_append (old : CodePoint) (new s t : Str) :
    replaceChar old new (s ++ t) = replaceChar old new s ++ replaceChar old new t :=
  List.flatMap_append

theorem mem_replaceChar {old c : CodePoint} {new s : Str} (member : c ∈ replaceChar old new s) :
    c ∈ new ∨ c ∈ s ∧ c ≠ old := by
  obtain ⟨d, hd, member⟩ := List.mem_flatMap.mp member
  split at member
  · exact .inl member
  next other =>
    obtain rfl := List.mem_singleton.mp member
    exact .inr ⟨hd, other⟩

theorem mem_replaceChar_of_ne {old c : CodePoint} {s : Str} (new : Str) (member : c ∈ s)
    (other : c ≠ old) : c ∈ replaceChar old new s :=
  List.mem_flatMap.mpr ⟨c, member, by rw [if_neg other]; exact List.mem_singleton_self c⟩

theorem replaceAll_append (entities others : List (CodePoint × Str)) (s : Str) :
    replaceAll (entities ++ others) s = replaceAll others (replaceAll entities s) :=
  List.foldl_append

/-- A character of the result is in an entity, or it was there and has no entity. -/
theorem mem_replaceAll {entities : List (CodePoint × Str)} {c : CodePoint} {s : Str}
    (member : c ∈ replaceAll entities s) :
    (∃ e ∈ entities, c ∈ e.2) ∨ c ∈ s ∧ ∀ e ∈ entities, c ≠ e.1 := by
  induction entities generalizing s with
  | nil => exact .inr ⟨member, List.forall_mem_nil _⟩
  | cons entity entities ih =>
    rcases ih member with ⟨e, he, inside⟩ | ⟨inside, others⟩
    · exact .inl ⟨e, List.mem_cons_of_mem _ he, inside⟩
    · rcases mem_replaceChar inside with inside | ⟨inside, other⟩
      · exact .inl ⟨entity, List.mem_cons_self, inside⟩
      · exact .inr ⟨inside, List.forall_mem_cons.mpr ⟨other, others⟩⟩

theorem mem_replaceAll_of_ne {entities : List (CodePoint × Str)} {c : CodePoint} {s : Str}
    (member : c ∈ s) (others : ∀ e ∈ entities, c ≠ e.1) : c ∈ replaceAll entities s := by
  induction entities generalizing s with
  | nil => exact member
  | cons entity entities ih =>
    obtain ⟨other, others⟩ := List.forall_mem_cons.mp others
    exact ih (mem_replaceChar_of_ne entity.2 member other) others

/-! ### Line breaks -/

/-- A text of characters that satisfy a predicate, with a word at some places. -/
inductive Woven (word : Str) (P : CodePoint → Prop) : Str → Prop where
  | nil : Woven word P []
  | char {c : CodePoint} {s : Str} : P c → Woven word P s → Woven word P (c :: s)
  | word {s : Str} : Woven word P s → Woven word P (word ++ s)

variable {word : Str} {P Q : CodePoint → Prop}

theorem Woven.of_forall {s : Str} (h : ∀ c ∈ s, P c) : Woven word P s := by
  induction s with
  | nil => exact .nil
  | cons c s ih =>
    obtain ⟨first, rest⟩ := List.forall_mem_cons.mp h
    exact .char first (ih rest)

theorem Woven.mono {s : Str} (h : Woven word P s) (le : ∀ c, P c → Q c) : Woven word Q s := by
  induction h with
  | nil => exact .nil
  | char plain _ ih => exact .char (le _ plain) ih
  | word _ ih => exact .word ih

/-- What the text is made of. -/
theorem Woven.mem {s : Str} (h : Woven word P s) : ∀ c ∈ s, P c ∨ c ∈ word := by
  induction h with
  | nil => exact List.forall_mem_nil _
  | char plain _ ih => exact List.forall_mem_cons.mpr ⟨.inl plain, ih⟩
  | word _ ih => exact List.forall_mem_append.mpr ⟨fun c member => .inr member, ih⟩

theorem replaceChar_of_not_mem {old : CodePoint} (new : Str) {s : Str} (absent : old ∉ s) :
    replaceChar old new s = s := by
  induction s with
  | nil => rfl
  | cons c s ih =>
    obtain ⟨other, rest⟩ := not_or.mp (List.mem_cons.not.mp absent)
    have head : (if c = old then new else [c]) = [c] := if_neg fun same => other same.symm
    rw [replaceChar, List.flatMap_cons, head]
    exact congrArg (c :: ·) (ih rest)

theorem Woven.replaceChar (old : CodePoint) {s : Str} (h : Woven word P s) (apart : old ∉ word) :
    Woven word (fun c => P c ∧ c ≠ old) (replaceChar old word s) := by
  induction h with
  | nil => exact .nil
  | @char c s plain _ ih =>
    rw [Python.replaceChar, List.flatMap_cons]
    split
    · exact .word ih
    next other => exact .char ⟨plain, other⟩ ih
  | word _ ih =>
    rw [replaceChar_append, replaceChar_of_not_mem word apart]
    exact .word ih

theorem woven_replacePair (first second : CodePoint) {s : Str} (h : ∀ c ∈ s, P c) :
    Woven word P (replacePair first second word s) := by
  induction s using replacePair.induct first second with
  | case1 => exact .nil
  | case2 c => exact .of_forall h
  | case3 c d rest pair ih =>
    rw [replacePair, if_pos pair]
    exact .word (ih fun e he => h e (List.mem_cons_of_mem _ (List.mem_cons_of_mem _ he)))
  | case4 c d rest other ih =>
    obtain ⟨first, rest⟩ := List.forall_mem_cons.mp h
    rw [replacePair, if_neg other]
    exact .char first (ih rest)

/-- Only the word is left of the line breaks. -/
theorem woven_replaceBreaks {s : Str} (h : ∀ c ∈ s, P c) :
    Woven BREAK (fun c => P c ∧ c ≠ CR ∧ c ≠ LF) (replaceBreaks s) := by
  have pairs : Woven BREAK P (replacePair CR LF BREAK s) := woven_replacePair CR LF h
  have returns := pairs.replaceChar CR (by decide)
  have feeds := returns.replaceChar LF (by decide)
  exact feeds.mono fun c plain => ⟨plain.1.1, plain.1.2, plain.2⟩

end Python
