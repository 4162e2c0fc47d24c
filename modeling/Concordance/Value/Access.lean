import Concordance.Text.Search
import Concordance.Value.Equality

/-!
Reading values of unknown shape: each operation answers for the types that have it and fails with
its cause for the others.

* `Value.items?` : the members of a collection; a text gives its characters, a mapping its keys.
* `Value.get?` : what a mapping holds under a key, null if nothing.
* `Value.contains?` : membership in a collection, occurrence in a text.
* `Value.entriesOf?` : the mapping a value can be turned into: its entries if it is one, else the
  pairs it consists of.
-/

namespace Concordance.Value

/-- The members of a collection. -/
def members? : Value → Option (List Value)
  | text s => some (s.toList.map fun c => text (String.ofList [c]))
  | bytes bs => some (bs.map fun b => int b.toNat)
  | list xs _ => some xs
  | tuple xs _ => some xs
  | set _ xs _ => some xs
  | dict es _ => some (es.map (·.1))
  | _ => none

/-- The members of a collection, or the fault of having none. -/
def items? (v : Value) : Answer (List Value) :=
  match v.members? with
  | some xs => .ok xs
  | none => .error .illTyped

/-- The texts in a list, or the fault of joining other values. -/
def texts? (vs : List Value) : Answer (List String) :=
  vs.mapM fun v => match v with
    | text s => .ok s
    | _ => .error .illTyped

/-- The entries of a mapping, or the fault of asking another value for them. -/
def mapping? (v : Value) : Answer (List (Value × Value)) :=
  match v.entries? with
  | some es => .ok es
  | none => .error .noAttribute

/-- What a mapping holds under a key, null if nothing. -/
def get? (v : Value) (key : Value) : Answer Value := do
  let es ← v.mapping?
  if key.hashable then pure ((lookup? es key).getD null) else throw .illTyped

/-- Whether a number, as a byte, occurs among bytes. -/
def byteIn (bs : List UInt8) (n : Int) : Answer Bool :=
  if 0 ≤ n ∧ n < 256 then .ok (bs.any fun b => (b.toNat : Int) == n) else .error .badValue

/-- Membership of the second value in the first. -/
def contains? : Value → Value → Answer Bool
  | text s, text t => .ok (Text.occursIn t.toList s.toList)
  | bytes bs, bytes cs => .ok (Text.occursIn cs bs)
  | bytes bs, bool b => byteIn bs b.toInt
  | bytes bs, int n => byteIn bs n
  | list xs _, v => .ok (memberOf xs v)
  | tuple xs _, v => .ok (memberOf xs v)
  | set _ xs _, set _ ys _ => .ok (memberOf xs (set true ys))
  | set _ xs _, v => if v.hashable then .ok (memberOf xs v) else .error .illTyped
  | dict es _, v => if v.hashable then .ok (lookup? es v).isSome else .error .illTyped
  | _, _ => .error .illTyped

/-- The pair that an element of a collection is. -/
def pair? (v : Value) : Answer (Value × Value) :=
  match v.members? with
  | none => .error .illTyped
  | some [k, w] => if k.hashable then .ok (k, w) else .error .illTyped
  | some _ => .error .badValue

/-- The mapping a value can be turned into. -/
def entriesOf? : Value → Answer (List (Value × Value))
  | dict es _ => .ok es
  | v => do
    let xs ← v.items?
    let ps ← xs.mapM pair?
    pure (dictOf ps)

/-- The set a value can be turned into. -/
def toSet? (v : Value) : Answer (List Value) := do
  match v with
  | set _ xs _ => pure xs
  | v => setOf? (← v.items?)

end Concordance.Value
