import MethodSignatures.Signature.Edit

/-! # Sessions

A session works on a current signature and keeps another one aside. A command that fails leaves both as they
are.
-/

namespace MethodSignatures

structure Session where
  current : Signature := {}
  saved : Signature := {}

namespace Session

inductive Command where
  | load (text : String)
  | edit (edit : Edit)
  | save
  | restore
  | compare

inductive Reply where
  | current (signature : Signature)
  | saved (signature : Signature)
  | same (value : Bool)
  | refused (error : EditError)

/-- Makes the given signature the current one, unless there is none. -/
def adopt (session : Session) : Except EditError Signature → Session × Reply
  | .ok signature => ({ session with current := signature }, .current signature)
  | .error error => (session, .refused error)

def step (session : Session) : Command → Session × Reply
  | .load text => session.adopt ((Signature.parse text).mapError .signature)
  | .edit edit => session.adopt (session.current.edit edit)
  | .save => ({ session with saved := session.current }, .saved session.current)
  | .restore => session.adopt (.ok session.saved)
  | .compare => (session, .same (session.current = session.saved))

def run (session : Session) : List Command → List Reply
  | [] => []
  | command :: rest =>
    let (session, reply) := session.step command
    reply :: session.run rest

end Session

end MethodSignatures
