/-
# Waitset.IoError -- why the operating system or a stream refused a transfer

An I/O error is a raw code of the operating system, a bare kind, or a kind with a text of its own.
`IoError.kind` is what an operation records about a failed transfer; `IoError.message` is what a
person reads.
-/
import Waitset.IoError.System

namespace Waitset

/-- An I/O error with its origin. -/
inductive IoError where
  /-- A raw error code of the operating system. -/
  | os (code : Int)
  /-- A kind, and nothing more. -/
  | simple (kind : IoErrorKind)
  /-- A kind with a text of its own. -/
  | custom (kind : IoErrorKind) (text : String)
  deriving DecidableEq, Repr

namespace IoError

/-- The kind of an error; a system code without an entry has no category. -/
def kind : IoError → IoErrorKind
  | os code => ((SystemError.describe? code).map Prod.fst).getD .uncategorized
  | simple kind => kind
  | custom kind _ => kind

/-- The system code, for an error that came from the operating system. -/
def code? : IoError → Option Int
  | os code => some code
  | _ => none

/-- What a person reads. -/
def message : IoError → String
  | os code =>
    ((SystemError.describe? code).map Prod.snd).getD ("Unknown error " ++ toString code) ++
      " (os error " ++ toString code ++ ")"
  | simple kind => kind.description
  | custom _ text => text

/-- The descriptor is not open, or not open for this direction. -/
def badDescriptor : IoError := .os 9

/-- Nothing can be moved right now. -/
def wouldBlock : IoError := .os 11

/-- Nobody is left to read what is written. -/
def brokenPipe : IoError := .os 32

@[simp] theorem kind_badDescriptor : badDescriptor.kind = .uncategorized := rfl

@[simp] theorem kind_wouldBlock : wouldBlock.kind = .wouldBlock := rfl

@[simp] theorem kind_brokenPipe : brokenPipe.kind = .brokenPipe := rfl

end IoError

end Waitset
