import PromqlAssist.Settings.Environment

/-!
# Inquiries

An inquiry is a computation that asks its surroundings questions: for the value of a variable, for a
file, and for the standard input. What it comes to depends on the answers alone.
-/

namespace PromqlAssist

/-- What reading a file comes to. -/
inductive FileContent where
  /-- There is no such file, and why not. -/
  | absent (why : Text)
  /-- The file is there and cannot be read, and why not. -/
  | unreadable (why : Text)
  | text (t : Text)
deriving DecidableEq, Repr

namespace FileContent

def isPresent : FileContent → Bool
  | absent _ => false
  | _ => true

end FileContent

inductive Inquiry (α : Type) where
  | done (a : α)
  | lookup (name : Text) (next : Option Text → Inquiry α)
  | read (path : Text) (next : FileContent → Inquiry α)
  | input (next : FileContent → Inquiry α)

/-- What answers the questions of an inquiry. -/
structure Surroundings where
  environment : Environment
  files : Text → FileContent
  input : FileContent

namespace Inquiry

variable {α β : Type}

def bind (x : Inquiry α) (f : α → Inquiry β) : Inquiry β :=
  match x with
  | .done a => f a
  | .lookup name next => .lookup name fun v => (next v).bind f
  | .read path next => .read path fun c => (next c).bind f
  | .input next => .input fun c => (next c).bind f

instance : Monad Inquiry where
  pure := .done
  bind := bind

/-- What an inquiry comes to in some surroundings. -/
def answer (s : Surroundings) : Inquiry α → α
  | .done a => a
  | .lookup name next => answer s (next (s.environment name))
  | .read path next => answer s (next (s.files path))
  | .input next => answer s (next s.input)

@[simp] theorem answer_pure (s : Surroundings) (a : α) : answer s (pure a) = a := rfl

@[simp] theorem answer_bind (s : Surroundings) (x : Inquiry α) (f : α → Inquiry β) :
    answer s (x >>= f) = answer s (f (answer s x)) := by
  change answer s (x.bind f) = _
  induction x with
  | done a => rfl
  | lookup name next ih => exact ih _
  | read path next ih => exact ih _
  | input next ih => exact ih _

def askVariable (name : Text) : Inquiry (Option Text) :=
  .lookup name .done

def askFile (path : Text) : Inquiry FileContent :=
  .read path .done

def askInput : Inquiry FileContent :=
  .input .done

/-- Asks for variables by name. The others count as not set. -/
def askEnvironment : List Text → Inquiry Environment
  | [] => .done fun _ => none
  | name :: names => do
    let value? ← askVariable name
    let others ← askEnvironment names
    return fun n => if n = name then value? else others n

end Inquiry

end PromqlAssist
