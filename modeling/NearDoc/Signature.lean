import NearDoc.Error

/-!
Calls by name, and how many arguments each of them takes.
-/

namespace NearDoc

/-- Names of calls, with the least and the greatest number of their arguments. -/
abbrev Signatures := List (String × Nat × Nat)

def Signatures.admit (calls : Signatures) (name : String) (given : Nat) : Except Error Unit :=
  match calls.lookup name with
  | none => .error (.unknownCall name)
  | some (least, most) =>
    if given < least ∨ most < given then .error .wrongArguments else .ok ()

end NearDoc
