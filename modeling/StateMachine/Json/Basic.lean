import StateMachine.Numeric.Double

/-!
JSON values. Integers from `-2 ^ 63` up to `2 ^ 64 - 1` are kept exactly, every other number is a
finite double. The members of an object are kept in the order of their keys, compared character by
character; `Json.ofMembers` builds them so, and of two members with one key the later counts.
-/

set_option autoImplicit false

namespace StateMachine

open Numeric

/-- A number of a JSON value. -/
inductive JsonNumber where
  | integer (value : Int) (inRange : -2 ^ (63 : Nat) ≤ value ∧ value < 2 ^ (64 : Nat))
  | double (value : FiniteDouble)
deriving DecidableEq

inductive Json where
  | null
  | bool (value : Bool)
  | number (value : JsonNumber)
  | string (value : String)
  | array (items : List Json)
  | object (members : List (String × Json))
deriving Inhabited

namespace JsonNumber

/-- The double nearest to the number. -/
def toDouble : JsonNumber → Double
  | .integer n _ => .ofInt n
  | .double x => .finite x

/-- Equal in kind and value: the integer 1 is not the double 1.0, and the sign of zero does not
count. -/
def sameAs : JsonNumber → JsonNumber → Bool
  | .integer m _, .integer n _ => m == n
  | .double x, .double y => x.sameValue y
  | _, _ => false

end JsonNumber

namespace Json

def ofNat (n : Nat) : Json :=
  if h : n < 2 ^ (64 : Nat) then .number (.integer n ⟨by omega, by omega⟩) else .null

/-- Sets a member, keeping the keys in order. -/
def insertMember (key : String) (value : Json) :
    List (String × Json) → List (String × Json)
  | [] => [(key, value)]
  | (other, old) :: rest =>
    if key = other then (key, value) :: rest
    else if key < other then (key, value) :: (other, old) :: rest
    else (other, old) :: insertMember key value rest

/-- The object with these members. -/
def ofMembers (members : List (String × Json)) : Json :=
  .object (members.foldl (fun sorted member ↦ insertMember member.1 member.2 sorted) [])

/-- The member of an object. -/
def get? : Json → String → Option Json
  | .object members, key => members.lookup key
  | _, _ => none

mutual

/-- Structural equality, numbers compared by `JsonNumber.sameAs`. -/
def sameAs : Json → Json → Bool
  | .null, .null => true
  | .bool a, .bool b => a == b
  | .number m, .number n => m.sameAs n
  | .string s, .string t => s == t
  | .array xs, .array ys => sameItems xs ys
  | .object ms, .object ns => sameMembers ms ns
  | _, _ => false

def sameItems : List Json → List Json → Bool
  | [], [] => true
  | x :: xs, y :: ys => x.sameAs y && sameItems xs ys
  | _, _ => false

def sameMembers : List (String × Json) → List (String × Json) → Bool
  | [], [] => true
  | (k, x) :: ms, (l, y) :: ns => k == l && x.sameAs y && sameMembers ms ns
  | _, _ => false

end

end Json

end StateMachine
