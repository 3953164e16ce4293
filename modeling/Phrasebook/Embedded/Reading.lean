import Phrasebook.Embedded.Expression

/-!
Reading forms of the program by goals. The goals stand in a row, the next one first; the tokens
are those up to the closing bracket around them. Tokens that are left over before a bracket are a
fault only if nothing worse comes after.
-/

namespace Phrasebook.Embedded

namespace Token

mutual

/-- The tokens in a token, brackets and all. -/
def count : Token → Nat
  | group _ tokens _ _ => countAll tokens + 2
  | bundle tokens _ _ => countAll tokens + 2
  | _ => 1

def countAll : List Token → Nat
  | [] => 0
  | token :: rest => count token + countAll rest

end

end Token

structure Reading where
  tokens : List Token
  /-- The place of the bracket that closes the tokens. -/
  ends : Option Nat
  todo : List Goal
  leftover : Option Fault

namespace Reading

/-- Where the reading stands. -/
def place (r : Reading) : Option Nat :=
  match r.tokens with
  | [] => r.ends
  | token :: _ => some token.place

def fail {α : Type} (r : Reading) (cause : Cause) : Except Fault α :=
  .error ⟨cause, r.place⟩

/-- Tokens that nothing was wanted of. The first ones that are found are told of. -/
def leftoverIn (r : Reading) (bracket : Option Bracket) : Option Fault :=
  r.leftover.or (r.tokens.head?.map fun token => ⟨.leftover bracket, some token.place⟩)

/-- Goes into a bracket. -/
def enter (r : Reading) (bracket : Bracket) (inside : List Goal) : Except Fault Reading :=
  match r.tokens with
  | .group found tokens _ closed :: behind =>
    if found = bracket then
      .ok ⟨tokens, some closed, inside ++ .leave bracket behind r.ends :: r.todo, r.leftover⟩
    else r.fail (.wanted (.brackets bracket))
  | _ :: _ => r.fail (.wanted (.brackets bracket))
  | [] => r.fail (.ended (.brackets bracket))

/-- Meets one goal that has been taken off the row. -/
def meet (r : Reading) : Goal → Except Fault Reading
  | .within bracket inside => r.enter bracket inside
  | .leave bracket behind ends => .ok ⟨behind, ends, r.todo, r.leftoverIn (some bracket)⟩
  | goal =>
    match goal.expand r.tokens with
    | .ok (goals, tokens) => .ok { r with tokens, todo := goals ++ r.todo }
    | .error cause => r.fail cause

/-- Meets so many goals at most. -/
def run : Nat → Reading → Except Fault Reading
  | 0, r => r.fail (.wanted .expression)
  | fuel + 1, r =>
    match r.todo with
    | [] => .ok r
    | goal :: todo => (({ r with todo } : Reading).meet goal).bind (run fuel)

/-- More goals than any row of so many tokens has: few of them meet no token. -/
def enough (tokens : List Token) : Nat :=
  64 * (Token.countAll tokens + 1)

/-- Do the tokens make one expression? -/
def expression (tokens : List Token) : Except Fault Unit := do
  let r ← run (enough tokens) ⟨tokens, none, [.expression true], none⟩
  match r.leftoverIn none with
  | some fault => throw fault
  | none => return ()

end Reading

end Phrasebook.Embedded
