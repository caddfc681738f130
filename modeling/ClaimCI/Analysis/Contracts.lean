import ClaimCI.Models

/-!
# Analysis contracts

The vocabulary the analysis layer shares: kinds of artifacts, roles and splits.
-/

open Python

namespace ClaimCI

inductive ArtifactKind where
  | results | config | dataset | benchmark | document | source | test | manifest
  deriving DecidableEq, Repr

inductive ExperimentRole where
  | baseline | candidate | reference | unspecified
  deriving DecidableEq, Repr

def ArtifactKind.value : ArtifactKind → Str
  | results => "results"
  | config => "config"
  | dataset => "dataset"
  | benchmark => "benchmark"
  | document => "document"
  | source => "source"
  | test => "test"
  | manifest => "manifest"

def ExperimentRole.value : ExperimentRole → Str
  | baseline => "baseline"
  | candidate => "candidate"
  | reference => "reference"
  | unspecified => "unspecified"

inductive EvaluationConstraintKind where
  | heldOut
  deriving DecidableEq, Repr

inductive UpstreamAggregationProcedure where
  | arithmeticMeanV1 | median | weightedMean | bestOfN | retryFiltering | adjudication | ambiguous
  | unsupported
  deriving DecidableEq, Repr

inductive EvidenceProfileId where
  | trainingExperimentV0 | benchmarkMeasurementV0
  deriving DecidableEq, Repr

inductive ProfileRoleMode where
  | pairedBaselineCandidate | sharedReference | sharedReferenceOrPaired
  deriving DecidableEq, Repr

/-- `AnalysisContractError`, which is a `ValueError`. -/
def contractError (message : Str) : Error := .valueError message

/-- A check of a constructor: it raises when the condition holds. -/
def rejectIf (condition : Bool) (error : Error) : Except Error Unit :=
  if condition then .error error else .ok ()

theorem rejectIf_ok_iff {condition : Bool} {error : Error} :
    rejectIf condition error = .ok () ↔ condition = false := by
  cases condition <;> simp [rejectIf]

end ClaimCI
