import ClaimCI.Report

/-!
# Report structure

Texts that artifacts control leave the lines of an audit report alone, except a metric name with a
line break.
-/

open Python

namespace ClaimCI

/-- The characters that Markdown, tables, links and HTML are made of, and line breaks. -/
def isStructural (c : CodePoint) : Bool := (lit "\r\n|\x60[]*_<>").contains c

/-- A text without structural characters, apart from `<br>` for a line break. -/
def Inert (s : Str) : Prop := Woven BREAK (fun c => isStructural c = false) s

/-- What the line puts in is inert. -/
def LineInert (line : MarkdownLine) : Prop :=
  ∀ escaping value, Fragment.hole escaping value ∈ line → Inert (escape escaping value)

/-- Two texts have as many lines, and no value in the pages they are written from is more than text. -/
structure Undisturbed (text otherText : Str) (page other : Page Escaping) : Prop where
  lines : lineCount text = lineCount otherText
  inert : (∀ line ∈ page, LineInert line) ∧ ∀ line ∈ other, LineInert line

/-- No CR and no LF. -/
def OneLine (s : Str) : Prop := CR ∉ s ∧ LF ∉ s

/-! ### The escaping functions -/

/-- The entities hide every structural character but the line breaks. -/
def hides (entities : List (CodePoint × Str)) : Bool :=
  (entities.all fun entity => entity.2.all fun c => !isStructural c) &&
    (lit "|\x60[]*_<>").all fun c => entities.any fun entity => entity.1 = c

theorem plain_of_hides {entities : List (CodePoint × Str)} (h : hides entities = true) {s : Str} :
    ∀ c ∈ replaceAll entities s, isStructural c = false ∨ (c = CR ∨ c = LF) ∧ c ∈ s := by
  rw [hides, Bool.and_eq_true, List.all_eq_true, List.all_eq_true] at h
  obtain ⟨clean, covered⟩ := h
  intro c member
  rcases mem_replaceAll member with ⟨entity, he, inside⟩ | ⟨inside, others⟩
  · have plain := List.all_eq_true.mp (clean entity he) c inside
    exact .inl (by simpa using plain)
  · by_cases structural : isStructural c = true
    · have breaks : lit "\r\n|\x60[]*_<>" = CR :: LF :: lit "|\x60[]*_<>" := by decide +kernel
      rw [isStructural, breaks, List.contains_iff_mem, List.mem_cons, List.mem_cons] at structural
      rcases structural with isReturn | isFeed | rest
      · exact .inr ⟨.inl isReturn, inside⟩
      · exact .inr ⟨.inr isFeed, inside⟩
      · obtain ⟨entity, he, same⟩ := List.any_eq_true.mp (covered c rest)
        exact absurd (of_decide_eq_true same).symm (others entity he)
    · exact .inl (Bool.eq_false_iff.mpr structural)

theorem replaceBreaks_inert {entities : List (CodePoint × Str)} (h : hides entities = true)
    (s : Str) : Inert (replaceBreaks (replaceAll entities s)) := by
  apply (woven_replaceBreaks (plain_of_hides h)).mono
  rintro c ⟨plain | ⟨broken, _⟩, noReturn, noFeed⟩
  · exact plain
  · exact absurd broken (not_or.mpr ⟨noReturn, noFeed⟩)

theorem text_inert (s : Str) : Inert (escape .text s) := by
  have hidden : hides (htmlEntities true ++ textEntities) = true := by decide +kernel
  have inert := replaceBreaks_inert hidden s
  rwa [replaceAll_append] at inert

theorem review_inert (s : Str) : Inert (escape .review s) := by
  have hidden : hides (htmlEntities true ++ reviewEntities) = true := by decide +kernel
  have inert := replaceBreaks_inert hidden (unicodeSafe s)
  rwa [replaceAll_append] at inert

theorem Inert.oneLine {s : Str} (h : Inert s) : OneLine s := by
  have absent (c : CodePoint) (structural : isStructural c = true) (noWord : c ∉ BREAK) : c ∉ s := by
    intro member
    rcases h.mem c member with plain | inside
    · rw [structural] at plain
      cases plain
    · exact noWord inside
  exact ⟨absent CR (by decide) (by decide), absent LF (by decide) (by decide)⟩

/-- `_markdown_code` keeps line breaks. -/
theorem code_inert_iff (s : Str) : Inert (escape .code s) ↔ OneLine s := by
  have hidden : hides (htmlEntities false ++ codeEntities) = true := by decide +kernel
  have whole : escape .code s = replaceAll (htmlEntities false ++ codeEntities) s := by
    rw [replaceAll_append]
    rfl
  rw [whole]
  constructor
  · intro inert
    obtain ⟨noReturn, noFeed⟩ := inert.oneLine
    have kept (c : CodePoint) (others : ∀ e ∈ htmlEntities false ++ codeEntities, c ≠ e.1)
        (absent : c ∉ replaceAll (htmlEntities false ++ codeEntities) s) : c ∉ s :=
      fun member => absent (mem_replaceAll_of_ne member others)
    exact ⟨kept CR (by decide) noReturn, kept LF (by decide) noFeed⟩
  · rintro ⟨noReturn, noFeed⟩
    apply Woven.of_forall
    intro c member
    rcases plain_of_hides hidden c member with plain | ⟨rfl | rfl, inside⟩
    · exact plain
    · exact absurd inside noReturn
    · exact absurd inside noFeed

theorem lineInert_nil : LineInert [] := by
  intro escaping value member
  cases member

theorem lineInert_fixed (s : Str) (line : MarkdownLine) :
    LineInert (.fixed s :: line) ↔ LineInert line := by
  simp only [LineInert, List.mem_cons, reduceCtorEq, false_or]

theorem lineInert_hole (escaping : Escaping) (value : Str) (line : MarkdownLine) :
    LineInert (.hole escaping value :: line) ↔ Inert (escape escaping value) ∧ LineInert line := by
  simp only [LineInert, List.mem_cons, Fragment.hole.injEq]
  constructor
  · intro h
    exact ⟨h escaping value (.inl ⟨rfl, rfl⟩), fun e v member => h e v (.inr member)⟩
  · rintro ⟨here, rest⟩ e v (⟨rfl, rfl⟩ | member)
    · exact here
    · exact rest e v member

/-! ### The lines of a template -/

theorem count_of_printable {s : Str} (h : ∀ c ∈ s, IsPrintable c) : s.count LF = 0 :=
  List.count_eq_zero.mpr fun member => absurd (h LF member) (by decide)

theorem formatFixed_printable (places : Nat) (x : Binary64) :
    ∀ c ∈ formatFixed places x, IsPrintable c := by
  refine List.forall_mem_append.mpr ⟨signText_printable _, ?_⟩
  refine List.forall_mem_append.mpr ⟨renderDigits_printable _, ?_⟩
  rw [fractionText]
  split
  · exact List.forall_mem_nil _
  · exact List.forall_mem_cons.mpr ⟨by decide, renderDigits_printable _⟩

theorem formatPercent_printable (places : Nat) (x : Binary64) :
    ∀ c ∈ formatPercent places x, IsPrintable c := by
  rw [formatPercent]
  split
  · exact List.forall_mem_append.mpr ⟨formatFixed_printable _ _, printable_of_all (by decide)⟩
  · exact List.forall_mem_append.mpr ⟨signText_printable _, printable_of_all (by decide)⟩

theorem hundredfoldText_printable (x : Binary64) : ∀ c ∈ hundredfoldText x, IsPrintable c := by
  rw [hundredfoldText]
  split
  · exact formatFixed_printable _ _
  · exact List.forall_mem_append.mpr ⟨signText_printable _, printable_of_all (by decide)⟩

theorem numberText_printable (x : Option Binary64) : ∀ c ∈ numberText x, IsPrintable c := by
  cases x with
  | none => exact printable_of_all (by decide)
  | some x => exact formatFixed_printable 6 x

theorem countText_printable (summary : Option MetricSummary) :
    ∀ c ∈ countText summary, IsPrintable c := by
  cases summary with
  | none => exact printable_of_all (by decide)
  | some summary => exact renderDigits_printable _

/-- A fixed text that is printed as it stands breaks no line. -/
@[simp] theorem breaks_word (s : String)
    (h : ((lit s).all fun c => decide (IsPrintable c)) = true) :
    (Fragment.fixed (lit s) : Fragment Escaping).breaks = 0 :=
  count_of_printable (printable_of_all h)

theorem breaks_fixed {s : Str} (h : ∀ c ∈ s, IsPrintable c) :
    (Fragment.fixed s : Fragment Escaping).breaks = 0 :=
  count_of_printable h

theorem breaks_hole (escaping : Escaping) (value : Str) :
    (Fragment.hole escaping value).breaks = 0 := rfl

theorem lineBreaks_cons (fragment : Fragment Escaping) (line : MarkdownLine) :
    lineBreaks (fragment :: line) = fragment.breaks + lineBreaks line := rfl

theorem lineBreaks_nil : lineBreaks ([] : MarkdownLine) = 0 := rfl

/-- The fixed parts of the line break nothing. -/
def Level (line : MarkdownLine) : Prop := lineBreaks line = 0

theorem level_nil : Level [] := rfl

theorem level_cons {fragment : Fragment Escaping} {line : MarkdownLine}
    (h : fragment.breaks = 0) (rest : Level line) : Level (fragment :: line) := by
  rw [Level, lineBreaks_cons, h, rest]

theorem summaryLine_level (label : String) (summary : Option MetricSummary)
    (h : ((lit label).all fun c => decide (IsPrintable c)) = true) :
    Level (summaryLine label summary) := by
  simp (disch := decide) only [Level, summaryLine, lineBreaks_cons, lineBreaks_nil, breaks_word,
    breaks_word label h, breaks_fixed (countText_printable summary),
    breaks_fixed (numberText_printable _), stddevText]

section Page

variable (casefold : Str → Str) (containerText : Json → Str)

theorem absoluteLine_level (metric : Str) (x : Option Binary64) :
    Level (absoluteLine casefold metric x) := by
  cases x with
  | none => exact level_cons (breaks_word _ (by decide)) level_nil
  | some x =>
    rw [absoluteLine]
    split
    · simp (disch := decide) only [Level, lineBreaks_cons, lineBreaks_nil, breaks_word,
        breaks_fixed (formatFixed_printable _ _), breaks_fixed (hundredfoldText_printable _)]
    · simp (disch := decide) only [Level, lineBreaks_cons, lineBreaks_nil, breaks_word,
        breaks_fixed (formatFixed_printable _ _)]

theorem relativeLine_level (x : Option Binary64) : Level (relativeLine x) := by
  cases x with
  | none => exact level_cons (breaks_word _ (by decide)) level_nil
  | some x =>
    simp (disch := decide) only [Level, relativeLine, lineBreaks_cons, lineBreaks_nil, breaks_word,
      breaks_fixed (formatFixed_printable _ _), breaks_fixed (formatPercent_printable _ _)]

theorem claimLines_level (result : AuditResult) : ∀ line ∈ claimLines casefold result, Level line := by
  have verdict : (Fragment.fixed (verdictPresentation result.verdict).1 :
      Fragment Escaping).breaks = 0 ∧ (Fragment.fixed (verdictPresentation result.verdict).2 :
      Fragment Escaping).breaks = 0 ∧ (Fragment.fixed result.verdict.value :
      Fragment Escaping).breaks = 0 := by
    cases result.verdict <;> decide
  have direction : (Fragment.fixed (directionLabel result.direction) :
      Fragment Escaping).breaks = 0 ∧ (Fragment.fixed result.direction.value :
      Fragment Escaping).breaks = 0 := by
    cases result.direction <;> decide
  have baseline := summaryLine_level "Baseline" result.baselineMetrics (by decide)
  have candidate := summaryLine_level "Candidate" result.candidateMetrics (by decide)
  have absolute := absoluteLine_level casefold result.metric result.absoluteImprovement
  have relative := relativeLine_level result.relativeImprovement
  unfold Level at *
  simp (disch := decide) only [claimLines, List.forall_mem_cons, lineBreaks_cons, lineBreaks_nil,
    breaks_word, breaks_hole, verdict, direction, baseline, candidate, absolute, relative,
    breaks_fixed (formatFixed_printable _ _), List.not_mem_nil, false_implies, implies_true, and_true]

theorem claimLines_inert_iff (result : AuditResult) :
    (∀ line ∈ claimLines casefold result, LineInert line) ↔ OneLine result.metric := by
  have absolute : LineInert (absoluteLine casefold result.metric result.absoluteImprovement) := by
    cases result.absoluteImprovement with
    | none => exact (lineInert_fixed _ _).mpr lineInert_nil
    | some x =>
      rw [absoluteLine]
      split <;> simp only [lineInert_fixed, lineInert_nil]
  have relative : LineInert (relativeLine result.relativeImprovement) := by
    cases result.relativeImprovement <;> simp only [relativeLine, lineInert_fixed, lineInert_nil]
  rw [← code_inert_iff]
  simp only [claimLines, summaryLine, List.forall_mem_cons, lineInert_fixed, lineInert_hole,
    lineInert_nil, text_inert, absolute, relative, List.not_mem_nil, false_implies, implies_true,
    true_and, and_true]

/-! ### Findings -/

/-- The evidence of a finding is one line. -/
theorem evidenceText_inert {evidence : Evidence} {text : Str}
    (h : evidenceText containerText evidence = some text) : Inert (escape .code text) := by
  obtain ⟨json, _, encoded⟩ := Option.bind_eq_some_iff.mp h
  have visible := dumps_forall
    (DumpStyle.writes_visible rfl (List.forall_mem_nil _) (List.forall_mem_nil _)) encoded
  rw [code_inert_iff]
  exact ⟨fun member => absurd (visible CR member) (by decide),
    fun member => absurd (visible LF member) (by decide)⟩

/-- What the lines of findings depend on: the identifiers, and no text. -/
def findingBreaks (ruleId : Str) : List Nat := [ruleId.count LF, 0, 0]

theorem markdownFinding_spec {finding : Finding} {page : Page Escaping}
    (h : markdownFinding containerText finding = some page) :
    page.map lineBreaks = findingBreaks finding.ruleId ∧ ∀ line ∈ page, LineInert line := by
  obtain ⟨evidence, encoded, h⟩ := Option.bind_eq_some_iff.mp h
  rw [← Option.some.inj h]
  have inert := evidenceText_inert containerText encoded
  constructor
  · simp (disch := decide) only [List.map_cons, List.map_nil, lineBreaks_cons, lineBreaks_nil,
      breaks_word, breaks_hole, findingBreaks]
    simp [Fragment.breaks]
  · simp only [List.forall_mem_cons, lineInert_fixed, lineInert_hole, lineInert_nil, text_inert,
      inert, List.not_mem_nil, false_implies, implies_true, and_true]

theorem markdownFindings_spec {findings : List Finding} {page : Page Escaping}
    (h : markdownFindings containerText findings = some page) :
    page.map lineBreaks = (findings.map Finding.ruleId).flatMap findingBreaks ∧
      ∀ line ∈ page, LineInert line := by
  induction findings generalizing page with
  | nil =>
    rw [← Option.some.inj h]
    exact ⟨rfl, List.forall_mem_nil _⟩
  | cons finding findings ih =>
    obtain ⟨first, here, h⟩ := Option.bind_eq_some_iff.mp h
    obtain ⟨rest, later, h⟩ := Option.bind_eq_some_iff.mp h
    obtain ⟨breaks, inert⟩ := markdownFinding_spec containerText here
    obtain ⟨others, inerts⟩ := ih later
    rw [← Option.some.inj h, List.map_append, breaks, others, List.forall_mem_append]
    exact ⟨rfl, inert, inerts⟩

/-- The identifier and the enumerated values of a finding. -/
def Finding.label (finding : Finding) : Str × Severity × Impact :=
  (finding.ruleId, finding.severity, finding.impact)

theorem ruleIds_filter (findings : List Finding) (p : Str × Severity × Impact → Bool) :
    ((findings.map Finding.label).filter p).map Prod.fst =
      (findings.filter fun finding => p finding.label).map Finding.ruleId := by
  rw [List.filter_map, List.map_map]
  rfl

def driverBreaks (labels : List (Str × Severity × Impact)) : List Nat :=
  let drivers := (labels.filter fun label => label.2.2 ≠ .none).map Prod.fst
  if drivers = [] then [0] else drivers.flatMap findingBreaks

theorem driverLines_spec {findings : List Finding} {page : Page Escaping}
    (h : driverLines containerText findings = some page) :
    page.map lineBreaks = driverBreaks (findings.map Finding.label) ∧
      ∀ line ∈ page, LineInert line := by
  have ruleIds : ((findings.map Finding.label).filter fun label => label.2.2 ≠ .none).map Prod.fst =
      (findings.filter fun finding => finding.impact ≠ .none).map Finding.ruleId :=
    ruleIds_filter findings fun label => label.2.2 ≠ .none
  rw [driverLines] at h
  rw [driverBreaks, ruleIds]
  split at h
  next none =>
    rw [none, ← Option.some.inj h]
    refine ⟨rfl, List.forall_mem_singleton.mpr ?_⟩
    exact (lineInert_fixed _ _).mpr lineInert_nil
  next some =>
    obtain ⟨breaks, inert⟩ := markdownFindings_spec containerText h
    rw [if_neg fun empty => some (List.map_eq_nil_iff.mp empty)]
    exact ⟨breaks, inert⟩

def severityBreaks (labels : List (Str × Severity × Impact)) (severity : Severity) : List Nat :=
  let grouped := (labels.filter fun label => label.2.1 = severity).map Prod.fst
  if grouped = [] then [] else 0 :: 0 :: (grouped.flatMap findingBreaks ++ [0])

theorem severityLines_spec {findings : List Finding} {severity : Severity} {page : Page Escaping}
    (h : severityLines containerText findings severity = some page) :
    page.map lineBreaks = severityBreaks (findings.map Finding.label) severity ∧
      ∀ line ∈ page, LineInert line := by
  have ruleIds : ((findings.map Finding.label).filter fun label => label.2.1 = severity).map Prod.fst =
      (findings.filter fun finding => finding.severity = severity).map Finding.ruleId :=
    ruleIds_filter findings fun label => label.2.1 = severity
  rw [severityLines] at h
  rw [severityBreaks, ruleIds]
  split at h
  next none =>
    rw [none, ← Option.some.inj h]
    exact ⟨rfl, List.forall_mem_nil _⟩
  next some =>
    obtain ⟨lines, written, h⟩ := Option.bind_eq_some_iff.mp h
    obtain ⟨breaks, inert⟩ := markdownFindings_spec containerText written
    have heading : lineBreaks (["#### ", .fixed severity.value] : MarkdownLine) = 0 := by
      cases severity <;> decide
    rw [if_neg fun empty => some (List.map_eq_nil_iff.mp empty), ← Option.some.inj h]
    constructor
    · rw [List.map_cons, List.map_cons, List.map_append, heading, breaks]
      rfl
    · simp only [List.forall_mem_cons, List.forall_mem_append, lineInert_fixed, lineInert_nil,
        true_and]
      exact ⟨inert, List.forall_mem_nil _⟩

theorem severitiesLines_spec {findings : List Finding} {severities : List Severity}
    {page : Page Escaping} (h : severitiesLines containerText findings severities = some page) :
    page.map lineBreaks = severities.flatMap (severityBreaks (findings.map Finding.label)) ∧
      ∀ line ∈ page, LineInert line := by
  induction severities generalizing page with
  | nil =>
    rw [← Option.some.inj h]
    exact ⟨rfl, List.forall_mem_nil _⟩
  | cons severity severities ih =>
    obtain ⟨first, here, h⟩ := Option.bind_eq_some_iff.mp h
    obtain ⟨rest, later, h⟩ := Option.bind_eq_some_iff.mp h
    obtain ⟨breaks, inert⟩ := severityLines_spec containerText here
    obtain ⟨others, inerts⟩ := ih later
    rw [← Option.some.inj h, List.map_append, breaks, others, List.forall_mem_append]
    exact ⟨rfl, inert, inerts⟩

/-- The line breaks of the fixed parts of a page, which depend on the labels of the findings only. -/
def pageBreaks (labels : List (Str × Severity × Impact)) : List Nat :=
  List.replicate 23 0 ++ [0, 0, 0] ++ driverBreaks labels ++ [0, 0, 0, 0] ++
    SEVERITY_ORDER.flatMap (severityBreaks labels) ++ [0, 0]

theorem markdownPage_spec {result : AuditResult} {page : Page Escaping}
    (h : markdownPage casefold containerText result = some page) :
    page.map lineBreaks = pageBreaks (result.findings.map Finding.label) ∧
      ((∀ line ∈ page, LineInert line) ↔ OneLine result.metric) := by
  obtain ⟨drivers, driven, h⟩ := Option.bind_eq_some_iff.mp h
  obtain ⟨groups, grouped, h⟩ := Option.bind_eq_some_iff.mp h
  obtain ⟨driverBreak, driverInert⟩ := driverLines_spec containerText driven
  obtain ⟨groupBreak, groupInert⟩ := severitiesLines_spec containerText grouped
  have claim : (claimLines casefold result).map lineBreaks = List.replicate 23 0 :=
    List.map_eq_replicate_iff.mpr (claimLines_level casefold result)
  rw [← Option.some.inj h]
  constructor
  · simp only [List.map_append, claim, driverBreak, groupBreak, pageBreaks]
    rfl
  · simp only [List.forall_mem_append, claimLines_inert_iff casefold result, driversHeading,
      findingsHeading, findingsEnd, List.forall_mem_cons, lineInert_fixed, lineInert_nil,
      List.not_mem_nil, false_implies, implies_true, and_true]
    exact ⟨fun h => h.1.1, fun h => ⟨⟨h, driverInert⟩, groupInert⟩⟩

theorem renderMarkdown_eq {result : AuditResult} {page : Page Escaping} {text : Str}
    (h : markdownPage casefold containerText result = some page)
    (rendered : renderMarkdown casefold containerText result = some text) :
    text = pageText escape page := by
  rw [renderMarkdown, h] at rendered
  exact (Option.some.inj rendered).symm

/-- Line breaks in the metric names are all that disturbs two reports with the same labels. -/
theorem undisturbed_iff {result other : AuditResult} {page otherPage : Page Escaping}
    (same : result.findings.map Finding.label = other.findings.map Finding.label)
    (h : markdownPage casefold containerText result = some page)
    (h' : markdownPage casefold containerText other = some otherPage) :
    Undisturbed (pageText escape page) (pageText escape otherPage) page otherPage ↔
      OneLine result.metric ∧ OneLine other.metric := by
  obtain ⟨breaks, inert⟩ := markdownPage_spec casefold containerText h
  obtain ⟨breaks', inert'⟩ := markdownPage_spec casefold containerText h'
  rw [← inert, ← inert']
  constructor
  · exact Undisturbed.inert
  · rintro ⟨here, there⟩
    refine ⟨?_, here, there⟩
    have lines (page : Page Escaping) (breaks : page.map lineBreaks =
        pageBreaks (result.findings.map Finding.label)) (inert : ∀ line ∈ page, LineInert line) :
        lineCount (pageText escape page) =
          (pageBreaks (result.findings.map Finding.label)).length +
            (pageBreaks (result.findings.map Finding.label)).sum := by
      have nonempty : page ≠ [] := by
        rintro rfl
        exact absurd (congrArg List.length breaks) (by simp [pageBreaks])
      rw [lineCount_pageText nonempty, ← breaks, List.length_map]
      rintro escaping value ⟨line, member, hole⟩
      exact (inert line member escaping value hole).oneLine.2
    rw [lines page breaks here, lines otherPage (breaks'.trans (by rw [same])) there]

end Page

end ClaimCI
