import EuWallet.Codec.Text

/-! # JSON values

`serde_json::Value` as the wallet reads it. A number is a `u64`, a negative `i64` or a float (kept as
its printed text: the wallet never computes with floats). An object lists its members in key order. -/

namespace EuWallet.Codec

inductive Number where
  | posInt (n : ℕ)
  | negInt (n : ℤ)
  | float (text : String)
deriving DecidableEq

def Number.asU64 : Number → Option ℕ
  | posInt n => some n
  | _ => none

def Number.asI64 : Number → Option ℤ
  | posInt n => if n < 2 ^ 63 then some n else none
  | negInt n => some n
  | float _ => none

def Number.render : Number → String
  | posInt n => toString n
  | negInt n => toString n
  | float t => t

inductive Json where
  | null
  | bool (b : Bool)
  | num (n : Number)
  | str (s : String)
  | arr (xs : List Json)
  | obj (members : List (String × Json))
deriving Inhabited

/-! ### Equality of JSON values is decidable -/

mutual

def Json.same : Json → Json → Bool
  | .null, .null => true
  | .bool a, .bool b => a = b
  | .num a, .num b => a = b
  | .str a, .str b => a = b
  | .arr a, .arr b => Json.sameElements a b
  | .obj a, .obj b => Json.sameMembers a b
  | _, _ => false

def Json.sameElements : List Json → List Json → Bool
  | [], [] => true
  | x :: a, y :: b => Json.same x y && Json.sameElements a b
  | _, _ => false

def Json.sameMembers : List (String × Json) → List (String × Json) → Bool
  | [], [] => true
  | (k, x) :: a, (l, y) :: b => k = l && Json.same x y && Json.sameMembers a b
  | _, _ => false

end

mutual

theorem Json.same_iff : ∀ a b : Json, a.same b = true ↔ a = b
  | .arr a, b => by cases b <;> simp [Json.same, Json.sameElements_iff a]
  | .obj a, b => by cases b <;> simp [Json.same, Json.sameMembers_iff a]
  | .null, b | .bool _, b | .num _, b | .str _, b => by cases b <;> simp [Json.same]

theorem Json.sameElements_iff : ∀ a b, Json.sameElements a b = true ↔ a = b
  | [], b => by cases b <;> simp [Json.sameElements]
  | x :: a, b => by cases b <;> simp [Json.sameElements, Json.same_iff x, Json.sameElements_iff a]

theorem Json.sameMembers_iff : ∀ a b, Json.sameMembers a b = true ↔ a = b
  | [], b => by cases b <;> simp [Json.sameMembers]
  | (k, x) :: a, b => by
    cases b <;> simp [Json.sameMembers, Json.same_iff x, Json.sameMembers_iff a, Prod.ext_iff]

end

instance : DecidableEq Json := fun a b => decidable_of_iff _ (Json.same_iff a b)

namespace Json

def asObject : Json → Option (List (String × Json))
  | obj m => some m
  | _ => none

def asArray : Json → Option (List Json)
  | arr xs => some xs
  | _ => none

def asStr : Json → Option String
  | str s => some s
  | _ => none

def asBool : Json → Option Bool
  | bool b => some b
  | _ => none

def asU64 : Json → Option ℕ
  | num n => n.asU64
  | _ => none

def asI64 : Json → Option ℤ
  | num n => n.asI64
  | _ => none

/-- `Value::get` with a text key: the member of that name of an object. -/
def get (j : Json) (key : String) : Option Json := j.asObject.bind (·.lookup key)

/-- `Map::contains_key`. -/
def hasKey (m : List (String × Json)) (key : String) : Bool := (m.lookup key).isSome

end Json

end EuWallet.Codec
