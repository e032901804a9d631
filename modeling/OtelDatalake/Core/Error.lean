import Mathlib.Data.Nat.Notation

namespace OtelDatalake.Core

/-- The causes of an error are the texts that they display. -/
inductive PipelineError where
  | missingMetadata (name : List Char)
  | configuration (cause : List Char)
  | arrow (cause : List Char)
  | storage (cause : List Char)
  | internal (message : List Char)
  | downstreamClosed
  | topologicalSinkMissing (name : List Char)
  deriving DecidableEq, Repr

def PipelineError.display : PipelineError → List Char
  | .missingMetadata name => "missing metadata: ".toList ++ name
  | .configuration cause => "configuration error: ".toList ++ cause
  | .arrow _ => "arrow operation failed".toList
  | .storage cause => "storage error: ".toList ++ cause
  | .internal message => "internal error: ".toList ++ message
  | .downstreamClosed => "downstream channel closed".toList
  | .topologicalSinkMissing name => "Topological DLQ sink missing: ".toList ++ name

/-- How a call ends that does not return a value: it returns an error, or it unwinds. -/
inductive Stop (Error : Type) where
  | returned (error : Error)
  | unwound
  deriving DecidableEq, Repr

end OtelDatalake.Core
