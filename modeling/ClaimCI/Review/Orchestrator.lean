import ClaimCI.Review.Interpretations
import ClaimCI.Review.ManifestAudits

/-!
# The review

The advisory review: collect sources, reserve files for manifest audits, extract claims, route their
evidence, synthesize. At most two calls reach the provider, and whatever is raised ends in a result.
-/

open Python

namespace ClaimCI.Review

inductive ReviewStatus where
  | disabled | unavailable | partialReview | complete
  deriving DecidableEq, Repr

structure ProviderUsage where
  inputTokens : Option Nat
  outputTokens : Option Nat
  totalTokens : Option Nat
  estimatedCost : Option Decimal

def ProviderUsage.unknown : ProviderUsage := ⟨none, none, none, none⟩

def MAX_RECORDED_TOKEN_COUNT : Nat := 1000000000000

/-- Implausible counts are not recorded. -/
def recordedCount (count : Option Nat) : Option Nat := count.filter (· ≤ MAX_RECORDED_TOKEN_COUNT)

/-- The constructor of a usage. -/
def providerUsage (inputTokens outputTokens totalTokens : Option Nat)
    (estimatedCost : Option Decimal) : ProviderUsage :=
  ⟨recordedCount inputTokens, recordedCount outputTokens, recordedCount totalTokens, estimatedCost⟩

/-- A response envelope. -/
structure ProviderResponse where
  outputText : Str
  provider : Str
  model : Str
  requestId : Option Str
  usage : ProviderUsage
  complete : Bool
  incompleteReason : Option Str

structure ProviderCallRecord where
  task : Str
  provider : Str
  model : Str
  requestId : Option Str
  usage : ProviderUsage
  inputChars : Nat
  outputChars : Nat

structure ResearchReview where
  status : ReviewStatus
  claims : List ScientificClaim
  interpretations : List ClaimInterpretation
  evidence : EvidenceBundle
  deterministicAudits : List AuditSnapshot
  providerCalls : List ProviderCallRecord
  usage : ProviderUsage
  errorCode : Option Str
  errorMessage : Option Str

/-- What a call of the provider comes to. -/
inductive ProviderOutcome where
  | returned (response : ProviderResponse)
  /-- An object that is not a response envelope. -/
  | foreign
  /-- An exception, by the name of its type. -/
  | raised (name : Str)

/-- The limits that a request's size or the calls are checked against, and the checkout. -/
structure ReviewSite where
  site : Site
  tools : ManifestTools
  repository : Repository
  limits : Limits
  /-- `collect_review_sources` reads the files of the repository. -/
  sameFiles : repository.capture = site.head.capture
  /-- `type(error).__name__`. -/
  faultName : Fault → Str
  /-- The sum of costs in the decimal context; `none` is a `DecimalException`. -/
  sumCosts : List Decimal → Option Decimal

variable (review : ReviewSite)

/-! ### Results -/

/-- A sum, when every call has the field. -/
def totalOf (values : List (Option Nat)) : Option Nat :=
  if values = [] then none else (values.mapM id).map List.sum

/-- `_aggregate_usage`. -/
def aggregateUsage (calls : List ProviderCallRecord) : ProviderUsage :=
  let usages := calls.map (·.usage)
  let costs : List (Option Decimal) := usages.map (·.estimatedCost)
  let consistent := usages.all fun usage =>
    match usage.inputTokens, usage.outputTokens with
    | some input, some output => usage.totalTokens == some (input + output)
    | _, _ => false
  providerUsage (totalOf (usages.map (·.inputTokens))) (totalOf (usages.map (·.outputTokens)))
    (if consistent then totalOf (usages.map (·.totalTokens)) else none)
    (if calls.isEmpty then none else (costs.mapM id).bind review.sumCosts)

/-- What a review has computed: its claims, evidence and audits. -/
structure Findings where
  claims : List ScientificClaim
  evidence : EvidenceBundle
  deterministicAudits : List AuditSnapshot

def Findings.none : Findings := ⟨[], .empty, []⟩

/-- `_result`. -/
def resultOf (status : ReviewStatus) (findings : Findings)
    (interpretations : List ClaimInterpretation) (calls : List ProviderCallRecord)
    (error : Option (Str × Str)) : ResearchReview where
  status
  claims := findings.claims
  interpretations
  evidence := findings.evidence
  deterministicAudits := findings.deterministicAudits
  providerCalls := calls
  usage := aggregateUsage review calls
  errorCode := error.map Prod.fst
  errorMessage := error.map Prod.snd

/-- The handler of every exception: what was computed is dropped. -/
def unavailable (calls : List ProviderCallRecord) (name : Str) : ResearchReview :=
  resultOf review .unavailable .none [] calls
    (some ("REVIEW_UNAVAILABLE", lit "Research review is unavailable (" ++ name ++ lit ")."))

/-! ### Sources and audits -/

/-- One round of the reservation: metadata and selected files are kept, others while slots are left. -/
def keepSource (maxFiles : Nat) (state : List SourceRecord × List Str) (source : SourceRecord) :
    List SourceRecord × List Str :=
  match source.path.val with
  | none => (state.1 ++ [source], state.2)
  | some path =>
    if state.2.contains path then (state.1 ++ [source], state.2)
    else if maxFiles ≤ state.2.dedup.length then state
    else (state.1 ++ [source], state.2 ++ [path])

/-- `_sources_after_manifest_reservation`. -/
def sourcesAfterManifestReservation (sources : SourceBundle) (plans : List ManifestAuditPlan)
    (maxFiles : Nat) : SourceBundle :=
  { sources with
    sources := (sources.sources.foldl (keepSource maxFiles) ([], plans.flatMap (·.paths))).1 }

/-- What extraction starts from. -/
structure Prepared where
  sources : SourceBundle
  plans : List ManifestAuditPlan

/-- A call of the manifest audits, whose handlers do not name the loader's own exceptions. -/
def escaping {α : Type} (result : Except TagFault α) : Except Fault α := result.mapError Fault.tag

/-- The stages before extraction. -/
def prepare (prTitle prDescription : Str) : Except Fault Prepared := do
  let sources ← collectReviewSources review.site.host review.site.lookup.tables review.repository
    prTitle prDescription review.limits
  let manifests := discoverManifests review.tools sources.repositoryPaths
    (min 4 review.limits.maxFiles)
  let planned ← escaping (planManifestAudits review.tools review.limits manifests)
  let plans ← selectRelevantPlans planned sources.changedPaths
  pure ⟨sourcesAfterManifestReservation sources plans review.limits.maxFiles, plans⟩

/-- Claims of these types use the inputs of every audit. -/
def ClaimType.isGenerallyAuditable (type : ClaimType) : Bool :=
  [metricImprovement, computeEquivalence, heldOutEvaluation, componentCausality].contains type

/-- `_manifest_priority_paths`. -/
def manifestPriorityPaths (casefold : Str → Str) (claims : List ScientificClaim)
    (bundles : List ManifestAuditBundle) (repositoryPaths : List Str) : List (Str × List Str) :=
  dictOf (claims.filterMap fun claim =>
    let informing := bundles.filter fun bundle =>
      (claim.metric.any fun metric => casefold metric.val == casefold bundle.snapshot.metric) ||
        claim.claimType.isGenerallyAuditable
    let paths := ((informing.flatMap (·.paths)).filter repositoryPaths.contains).reverse.dedup.reverse
    if paths = [] then none else some (claim.claimId.val, paths))

/-- The executed audits with the files that their plans reserved. -/
def auditBundles (plans : List ManifestAuditPlan) (audits : List AuditSnapshot) :
    List ManifestAuditBundle :=
  audits.filterMap fun snapshot =>
    (plans.reverse.find? fun plan => plan.manifestPath == snapshot.manifestPath).map fun plan =>
      ⟨snapshot, plan.paths⟩

/-- The audits that are executed after extraction. -/
def executedAudits (prepared : Prepared) : Except Fault (List ManifestAuditBundle) :=
  escaping (collectManifestAudits review.tools review.limits
    (prepared.plans.map (·.manifestPath)))

/-- The paths of the issued sources. -/
def sourcePaths (sources : SourceBundle) : List Str := sources.sources.filterMap fun source =>
  source.path.val

/-- The arguments of evidence discovery. -/
def evidenceRequest (prepared : Prepared) (executed : List ManifestAuditBundle)
    (claims : List ScientificClaim) : EvidenceRequest :=
  let bundles := auditBundles prepared.plans (executed.map (·.snapshot))
  let audited := (bundles.flatMap (·.paths)).filter prepared.sources.repositoryPaths.contains
  { claims
    repositoryPaths := prepared.sources.repositoryPaths
    limits := review.limits
    suggestedPaths := fun _ => []
    priorityPaths := manifestPriorityPaths review.site.lookup.tables.casefold claims bundles
      prepared.sources.repositoryPaths
    selectedPaths := sortedSet (sourcePaths prepared.sources ++ audited)
    changedPaths := some prepared.sources.changedPaths }

/-! ### The two calls -/

/-- `_record_call`. -/
def recordCall (task : Str) (response : ProviderResponse) (inputChars : Nat) :
    Except Fault ProviderCallRecord := do
  let _ ← nonemptyText "provider name" 64 response.provider
  let _ ← nonemptyText "provider model" 128 response.model
  let _ ← optionalText "provider request_id" 256 response.requestId
  pure ⟨task, response.provider, response.model, response.requestId, response.usage, inputChars,
    response.outputText.length⟩

/-- The error of a response that is not complete. -/
def incompleteError (response : ProviderResponse) (truncated incomplete : Str × Str) : Str × Str :=
  if response.incompleteReason = some (lit "max_output_tokens") then truncated else incomplete

/-- The claims of an extraction output, and how many candidates were rejected. -/
def extractedClaims (sources : SourceBundle) (output : Str) :
    Except Fault ClaimCandidateValidation := do
  let payload ← parseJson review.site.lookup output
  let validation ← validateClaimCandidatesBestEffort review.site.host payload sources
    review.limits.maxClaims
  rejectWhen (validation.rejectionReasons != [] && validation.claims.isEmpty)
    "all extracted claim candidates failed deterministic source validation"
  pure validation

/-- What synthesis starts from: everything that a result carries. -/
structure Routed where
  findings : Findings
  rejectedCandidates : Nat

/-- The stages between the calls. -/
def routeClaims (prepared : Prepared) (response : ProviderResponse) : Except Fault Routed := do
  rejectWhen (review.limits.maxOutputChars < response.outputText.length)
    "provider extraction output exceeds configured limit"
  let validation ← extractedClaims review prepared.sources response.outputText
  let executed ← executedAudits review prepared
  let evidence ← discoverEvidence review.site
    (evidenceRequest review prepared executed validation.claims)
  pure ⟨⟨validation.claims, evidence, executed.map (·.snapshot)⟩,
    validation.rejectionReasons.length⟩

/-- The provider, and the sizes of the two requests. -/
structure Provider where
  extractionChars : Prepared → Except Fault Nat
  extractClaims : Prepared → ProviderOutcome
  synthesisChars : Routed → Except Fault Nat
  synthesizeReview : Routed → ProviderOutcome

/-- What the interpretations of a review are checked against. -/
def Routed.context (routed : Routed) : SynthesisContext where
  claims := routed.findings.claims
  evidence := routed.findings.evidence
  constraints := interpretationConstraints review.site.lookup routed.findings.claims
    routed.findings.evidence

/-- The interpretations of a synthesis output. -/
def synthesisOf (routed : Routed) (output : Str) : Except Fault (List ClaimInterpretation) := do
  let value ← parseJson review.site.lookup output
  parseInterpretations (routed.context review) value

/-- What is said about an invalid synthesis. -/
def validationMessage (message : Str) : Str :=
  if containsText "claim-mismatched repository evidence" message then
    lit "Review synthesis failed deterministic citation ownership validation; " ++
      lit "no synthesis interpretation was accepted."
  else if containsText "unknown or duplicate claim" message ||
      containsText "interpret every accepted claim" message then
    lit "Review synthesis failed deterministic claim coverage validation; " ++
      lit "no synthesis interpretation was accepted."
  else
    lit "Review synthesis returned complete output that failed " ++
      lit "deterministic claim or citation validation; no synthesis interpretation was accepted."

/-- The status of a review whose synthesis is valid. -/
def acceptSynthesis (routed : Routed) (calls : List ProviderCallRecord)
    (interpretations : List ClaimInterpretation) : ResearchReview :=
  if routed.rejectedCandidates ≠ 0 then
    resultOf review .partialReview routed.findings interpretations calls
      (some ("CLAIM_CANDIDATES_REJECTED", natText routed.rejectedCandidates ++
        lit " extracted claim candidate(s) failed " ++
        lit "deterministic source validation and were excluded; every retained claim was reviewed."))
  else if routed.findings.evidence.routingIncomplete then
    resultOf review .partialReview routed.findings interpretations calls
      (some ("EVIDENCE_ROUTING_INCOMPLETE",
        lit "One or more provider-suggested evidence hints remained " ++
          lit "unresolved after deterministic evidence routing; every retained " ++
          lit "claim was interpreted, but the advisory review is incomplete."))
  else resultOf review .complete routed.findings interpretations calls none

/-- A complete synthesis output within the limit. -/
def judgeSynthesis (routed : Routed) (calls : List ProviderCallRecord) (output : Str) :
    ResearchReview :=
  match synthesisOf review routed output with
  | .ok interpretations => acceptSynthesis review routed calls interpretations
  | .error (.reviewError message) =>
    resultOf review .partialReview routed.findings [] calls
      (some ("SYNTHESIS_INVALID", validationMessage message))
  -- Only a `ReviewError` is an invalid synthesis here; anything else reaches the outer handler.
  | .error fault => unavailable review calls (review.faultName fault)

/-- The response to the synthesis request. -/
def receiveSynthesis (routed : Routed) (calls : List ProviderCallRecord) (inputChars : Nat)
    (response : ProviderResponse) : ResearchReview :=
  match recordCall "synthesize_review" response inputChars with
  | .error fault => unavailable review calls (review.faultName fault)
  | .ok record =>
    let both := calls ++ [record]
    if response.complete = false then
      resultOf review .partialReview routed.findings [] both
        (some (incompleteError response
          ("SYNTHESIS_TRUNCATED",
            lit "Review synthesis reached the provider output-token limit before " ++
              lit "a complete structured response was returned.")
          ("SYNTHESIS_INCOMPLETE",
            "Review synthesis did not return a complete structured response.")))
    -- the limit is on the characters of both responses
    else if review.limits.maxOutputChars < (both.map (·.outputChars)).sum then
      resultOf review .partialReview routed.findings [] both
        (some ("SYNTHESIS_OUTPUT_LIMIT",
          lit "Review synthesis exceeded the configured aggregate output limit; " ++
            lit "no synthesis interpretation was accepted."))
    else judgeSynthesis review routed both response.outputText

/-- A result, and the calls that reached the provider. -/
structure ReviewRun where
  result : ResearchReview
  calls : Nat

/-- The second half of a review. -/
def synthesize (provider : Provider) (routed : Routed) (calls : List ProviderCallRecord) :
    ReviewRun :=
  if review.limits.maxCalls < 2 then
    ⟨resultOf review .partialReview routed.findings [] calls
      (some ("CALL_LIMIT", "Synthesis was skipped by the configured call limit.")), 1⟩
  else
    match provider.synthesisChars routed with
    | .error fault => ⟨unavailable review calls (review.faultName fault), 1⟩
    | .ok inputChars =>
      if review.limits.maxContextChars < inputChars then
        ⟨resultOf review .partialReview routed.findings [] calls
          (some ("CONTEXT_LIMIT", "Synthesis context exceeds the configured limit.")), 1⟩
      else
        match provider.synthesizeReview routed with
        | .raised name => ⟨unavailable review calls name, 2⟩
        -- an object that is not a response is rejected under the module's own error
        | .foreign => ⟨unavailable review calls "ReviewError", 2⟩
        | .returned response => ⟨receiveSynthesis review routed calls inputChars response, 2⟩

/-- The response to the extraction request. -/
def receiveExtraction (provider : Provider) (prepared : Prepared) (inputChars : Nat)
    (response : ProviderResponse) : ReviewRun :=
  match recordCall "extract_claims" response inputChars with
  | .error fault => ⟨unavailable review [] (review.faultName fault), 1⟩
  | .ok record =>
    if response.complete = false then
      ⟨resultOf review .partialReview .none [] [record]
        (some (incompleteError response
          ("CLAIM_EXTRACTION_TRUNCATED",
            lit "Claim extraction reached the provider output-token limit before " ++
              lit "a complete structured response was returned.")
          ("CLAIM_EXTRACTION_INCOMPLETE",
            "Claim extraction did not return a complete structured response."))), 1⟩
    else
      match routeClaims review prepared response with
      | .error fault => ⟨unavailable review [record] (review.faultName fault), 1⟩
      | .ok routed => synthesize review provider routed [record]

/-- `run_review`, enabled and with a provider. -/
def runReview (provider : Provider) (prTitle prDescription : Str) : ReviewRun :=
  match prepare review prTitle prDescription with
  | .error fault => ⟨unavailable review [] (review.faultName fault), 0⟩
  | .ok prepared =>
    match provider.extractionChars prepared with
    | .error fault => ⟨unavailable review [] (review.faultName fault), 0⟩
    | .ok inputChars =>
      if review.limits.maxContextChars < inputChars then
        ⟨resultOf review .unavailable .none [] []
          (some ("CONTEXT_LIMIT", "Extraction context exceeds the configured limit.")), 0⟩
      else
        match provider.extractClaims prepared with
        | .raised name => ⟨unavailable review [] name, 1⟩
        | .foreign => ⟨unavailable review [] "ReviewError", 1⟩
        | .returned response => receiveExtraction review provider prepared inputChars response

end ClaimCI.Review
