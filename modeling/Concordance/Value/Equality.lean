import Concordance.Fault
import Concordance.Value

/-!
Equality of values, and the sets and mappings that rest on it.

* `Value.same` : numbers are equal by their exact value, so `1`, `1.0` and `true` are one member of
  a set; sequences are equal place by place, sets and mappings whatever their order, records field
  by field within one kind. What is not a number equals itself alone.
* `Value.hashable` : the values that can be members of a set or keys of a mapping.
* `Value.insertNew`, `Value.put` : the first of equal members is kept; a mapping keeps the first of
  equal keys, at its place, with the last value.
* `Value.redefine` : a mapping that stands at several places has one more entry at all of them.
-/

namespace Concordance.Value

/-- Whether two numbers have the same exact value. -/
def sameNumber : Value → Value → Bool
  | float x, float y => x == y || x.compare? y == some .eq
  | float x, w => match w.integer?, x.ratio? with
    | some n, some (a, b) => a == n * b
    | _, _ => false
  | v, float y => match v.integer?, y.ratio? with
    | some n, some (a, b) => a == n * b
    | _, _ => false
  | v, w => match v.integer?, w.integer? with
    | some a, some b => a == b
    | _, _ => false

mutual

/-- Equality of values. -/
def same (v w : Value) : Bool :=
  match v with
  | null => match w with
    | null => true
    | _ => false
  | bool b => sameNumber (bool b) w
  | int n => sameNumber (int n) w
  | float x => sameNumber (float x) w
  | text s => w.text? == some s
  | bytes bs => match w with
    | bytes cs => bs == cs
    | _ => false
  | date d _ => match w with
    | date e _ => d == e
    | _ => false
  | moment m _ => match w with
    | moment n _ => m.compare? n == some .eq
    | _ => false
  | list xs _ => match w with
    | list ys _ => sameList xs ys
    | _ => false
  | tuple xs _ => match w with
    | tuple ys _ => sameList xs ys
    | _ => false
  | set _ xs _ => match w with
    | set _ ys _ => xs.length == ys.length && within xs ys
    | _ => false
  | dict es _ => match w with
    | dict fs _ => es.length == fs.length && entriesWithin es fs
    | _ => false
  | partType t => match w with
    | partType u => t == u
    | _ => false
  | resourceType t => match w with
    | resourceType u => t == u
    | _ => false
  | node a b => match w with
    | node a' b' => same a a' && same b b'
    | _ => false
  | ruleSet a b c => match w with
    | ruleSet a' b' c' => same a a' && same b b' && same c c'
    | _ => false
  | workItem a b c => match w with
    | workItem a' b' c' => same a a' && same b b' && same c c'
    | _ => false
  | subProcess a b c d => match w with
    | subProcess a' b' c' d' => same a a' && same b b' && same c c' && same d d'
    | _ => false
  | var a b c => match w with
    | var a' b' c' => same a a' && same b b' && same c c'
    | _ => false
  | item a b => match w with
    | item a' b' => same a a' && same b b'
    | _ => false
  | message a b c => match w with
    | message a' b' c' => same a a' && same b b' && same c c'
    | _ => false
  | process a b c d e f g h i j k => match w with
    | process a' b' c' d' e' f' g' h' i' j' k' =>
      same a a' && same b b' && same c c' && same d d' && same e e' && same f f' && same g g' &&
        same h h' && same i i' && same j j' && same k k'
    | _ => false
  | part a t => match w with
    | part b u => same a b && t == u
    | _ => false
  | shared a t => match w with
    | shared b u => same a b && t == u
    | _ => false
  | resourceRef a t => match w with
    | resourceRef b u => same a b && t == u
    | _ => false
  | resource a t ps _ => match w with
    | resource b u qs _ => same a b && t == u && ps.length == qs.length && within ps qs
    | _ => false
  | index a b rs ss qs cs => match w with
    | index a' b' rs' ss' qs' cs' =>
      same a a' && same b b' && sameList rs rs' && ss.length == ss'.length && within ss ss' &&
        qs.length == qs'.length && within qs qs' && cs.length == cs'.length && within cs cs'
    | _ => false

/-- Equality place by place. -/
def sameList : List Value → List Value → Bool
  | [], [] => true
  | x :: xs, y :: ys => same x y && sameList xs ys
  | _, _ => false

/-- Every member of the first list equals one of the second. -/
def within : List Value → List Value → Bool
  | [], _ => true
  | x :: xs, ys => ys.any (fun y => same x y) && within xs ys

/-- Every entry of the first mapping has an equal entry in the second. -/
def entriesWithin : List (Value × Value) → List (Value × Value) → Bool
  | [], _ => true
  | (k, v) :: es, fs => fs.any (fun e => same k e.1 && same v e.2) && entriesWithin es fs

end

mutual

/-- The values that can be members of a set or keys of a mapping. -/
def hashable : Value → Bool
  | list .. => false
  | dict .. => false
  | set frozen .. => frozen
  | tuple xs _ => allHashable xs
  | node .. | ruleSet .. | workItem .. | subProcess .. => false
  | var .. | item .. | message .. | process .. | resource .. => false
  | part name _ => hashable name
  | shared name _ => hashable name
  | resourceRef name _ => hashable name
  | index processId .. => hashable processId
  | _ => true

/-- All members of a tuple can be members of a set. -/
def allHashable : List Value → Bool
  | [] => true
  | x :: xs => hashable x && allHashable xs

end

/-! ### Sets -/

/-- A member of the list equals the value. -/
def memberOf (xs : List Value) (v : Value) : Bool := xs.any (same · v)

/-- The set with one more member; an equal member that is there already stays. -/
def insertNew (xs : List Value) (v : Value) : List Value :=
  if memberOf xs v then xs else xs ++ [v]

/-- The set with one more member, which has to be hashable. -/
def insert? (xs : List Value) (v : Value) : Answer (List Value) :=
  if v.hashable then .ok (insertNew xs v) else .error .illTyped

/-- The set of the members of a list, the first of equal members being kept. -/
def dedup (xs : List Value) : List Value := xs.foldl insertNew []

/-- The set of the members of a list, all of which have to be hashable. -/
def setOf? (xs : List Value) : Answer (List Value) := xs.foldlM insert? []

/-! ### Mappings -/

/-- The value under a key. -/
def lookup? (es : List (Value × Value)) (k : Value) : Option Value :=
  (es.find? fun e => same e.1 k).map (·.2)

/-- The value under a textual key. -/
def field? (es : List (Value × Value)) (k : String) : Option Value := lookup? es (text k)

/-- The value under a textual key, null if there is none. -/
def field (es : List (Value × Value)) (k : String) : Value := (field? es k).getD null

/-- The mapping with a value under a key: a key that is there keeps its place. -/
def put : List (Value × Value) → Value → Value → List (Value × Value)
  | [], k, v => [(k, v)]
  | (l, w) :: es, k, v => if same l k then (l, v) :: es else (l, w) :: put es k v

/-- The mapping without a key. -/
def erase (es : List (Value × Value)) (k : Value) : List (Value × Value) :=
  es.filter fun e => !same e.1 k

/-- The mapping of a list of entries. -/
def dictOf (es : List (Value × Value)) : List (Value × Value) :=
  es.foldl (fun m e => put m e.1 e.2) []

mutual

/-- A value in which one object, a mapping, has another value under a key, wherever the object
stands. A collection inside itself, which is `around`, is left as it is: nothing looks into it
there. -/
def redefine (object : Mark) (k v : Value) (around : List Mark) : Value → Value
  | list xs mark =>
    if mark.any around.contains then list xs mark
    else list (redefineAll object k v (mark.toList ++ around) xs) mark
  | tuple xs mark =>
    if mark.any around.contains then tuple xs mark
    else tuple (redefineAll object k v (mark.toList ++ around) xs) mark
  | dict es mark =>
    if mark.any around.contains then dict es mark
    else
      let es := redefineEntries object k v (mark.toList ++ around) es
      dict (if mark == some object then put es k v else es) mark
  | w => w

/-- The same for several values. -/
def redefineAll (object : Mark) (k v : Value) (around : List Mark) : List Value → List Value
  | [] => []
  | x :: xs => redefine object k v around x :: redefineAll object k v around xs

/-- The same for the entries of a mapping. -/
def redefineEntries (object : Mark) (k v : Value) (around : List Mark) :
    List (Value × Value) → List (Value × Value)
  | [] => []
  | (l, w) :: es => (l, redefine object k v around w) :: redefineEntries object k v around es

end

end Concordance.Value
