import JJDai.Lib.NumberOrder
import JJDai.Primitive.Durable

/-! More built-ins on values of any type: `get` with a default, `in`, `<`, `min`, `int`. -/

namespace JJDai

open PyText

def getDefault (j : Json) (key : Str) (default : Json) : Py Json :=
  match j with
  | .obj fields => return (Dict.get? fields key).getD default
  | _ => raise .attributeError

theorem dotGet_of_subscript {j value : Json} {key : Str} (read : subscript j key = .ok value) :
    dotGet j key = .ok value := by
  obtain ⟨fields, rfl⟩ := obj_of_subscript read
  rw [dotGet_obj, subscript_obj.mp read]
  rfl

theorem subscript_of_dotGet {j value : Json} {key : Str} (read : dotGet j key = .ok value) (present : value ≠ .null) :
    subscript j key = .ok value := by
  obtain ⟨fields, rfl⟩ := obj_of_dotGet read
  rw [dotGet_obj, Except.ok.injEq] at read
  rw [subscript_obj, some_of_getD read present]

theorem getDefault_of_dotGet {record : Json} {field text : Str} {default : Json}
    (read : dotGet record field = .ok (.str text)) : getDefault record field default = .ok (.str text) := by
  cases record with
  | obj fields =>
    rw [dotGet_obj, Except.ok.injEq] at read
    rw [getDefault, some_of_getD read (by simp)]
    rfl
  | _ => cases read

/-- The key a value is in a dict; an unhashable value raises. -/
def dictKey (value : Json) : Py Json := do
  if !hashable value then raise .typeError
  return value.comparisonKey

/-- A comprehension with a condition that can raise. -/
def filterPy (f : α → Py Bool) : List α → Py (List α)
  | [] => return []
  | item :: rest => do
    let kept ← f item
    let later ← filterPy f rest
    return if kept then item :: later else later

theorem filterPy_ok {f : α → Py Bool} {items kept : List α} (made : filterPy f items = .ok kept) :
    ∀ item ∈ kept, item ∈ items ∧ f item = .ok true := by
  induction items generalizing kept with
  | nil =>
    obtain rfl := Except.ok.inj made
    simp
  | cons first rest ih =>
    simp only [filterPy, bind, Py.bind_ok] at made
    obtain ⟨holds, tested, later, laterMade, made⟩ := made
    obtain rfl := Except.ok.inj made
    have inner := ih laterMade
    intro item member
    cases holds with
    | false =>
      obtain ⟨inside, passes⟩ := inner item member
      exact ⟨List.mem_cons_of_mem _ inside, passes⟩
    | true =>
      rcases List.mem_cons.mp member with rfl | old
      · exact ⟨List.mem_cons_self, tested⟩
      · obtain ⟨inside, passes⟩ := inner item old
        exact ⟨List.mem_cons_of_mem _ inside, passes⟩

theorem filterPy_of_forall {f : α → Py Bool} {p : α → Bool} {items : List α}
    (each : ∀ item ∈ items, f item = .ok (p item)) : filterPy f items = .ok (items.filter p) := by
  induction items with
  | nil => rfl
  | cons item rest ih =>
    have later := ih (fun other member => each other (List.mem_cons_of_mem _ member))
    simp only [filterPy, each item List.mem_cons_self, later, bind, Except.bind, pure, Except.pure, List.filter_cons]

theorem filterPy_append {f : α → Py Bool} {front back kept more : List α} (first : filterPy f front = .ok kept)
    (second : filterPy f back = .ok more) : filterPy f (front ++ back) = .ok (kept ++ more) := by
  induction front generalizing kept with
  | nil =>
    obtain rfl := Except.ok.inj first
    exact second
  | cons item front ih =>
    simp only [filterPy, bind, Py.bind_ok] at first
    obtain ⟨holds, tested, later, rest, made⟩ := first
    obtain rfl := Except.ok.inj made
    simp only [List.cons_append, filterPy, tested, ih rest, bind, Except.bind, pure, Except.pure]
    cases holds <;> rfl

def pyContains (key : Str) : Json → Py Bool
  | .obj fields => return (Dict.get? fields key).isSome
  | .arr items => return items.contains (.str key)
  | .str s => return s.tails.any (fun rest => key.isPrefixOf rest)
  | _ => raise .typeError

mutual

def pyLess : Json → Json → Py Bool
  | .arr a, .arr b => lessItems a b
  | .str a, .str b => return decide (a < b)
  | .float a, .float b => return a.less b
  | .float a, b =>
    match asInt? b with
    | some n => return (PyFloat.ofInt n).any (fun x => a.less x)
    | none => raise .typeError
  | a, .float b =>
    match asInt? a with
    | some n => return (PyFloat.ofInt n).any (fun x => x.less b)
    | none => raise .typeError
  | a, b =>
    match asInt? a, asInt? b with
    | some n, some m => return decide (n < m)
    | _, _ => raise .typeError

def lessItems : List Json → List Json → Py Bool
  | _, [] => return false
  | [], _ :: _ => return true
  | a :: as, b :: bs => if Json.pyEq a b then lessItems as bs else pyLess a b

end

/-- `min(values)` of values that are there. -/
def pyMin (first : Json) (rest : List Json) : Py Json :=
  rest.foldlM (fun best value => do
    if ← pyLess value best then return value else return best) first

/-- The digits of an `int` literal, with single underscores between them. -/
def digitsOfText : Str → Option (List Nat)
  | [] => none
  | [c] => if isDigit c then some [c.val - 48] else none
  | c :: d :: rest =>
    if !isDigit c then none
    else if d = ch '_' then
      match rest with
      | [] => none
      | next :: later => (digitsOfText (next :: later)).map (fun digits => (c.val - 48) :: digits)
    else (digitsOfText (d :: rest)).map (fun digits => (c.val - 48) :: digits)

/-- `int(s)` in ASCII digits; `none` stands for `ValueError`. -/
def intOfText (s : Str) : Option Int :=
  let text := ((s.dropWhile Durable.isSpace).reverse.dropWhile Durable.isSpace).reverse
  let value (digits : Str) : Option Int :=
    (digitsOfText digits).map (fun digits => ((digits.foldl (fun n d => n * 10 + d) 0 : Nat) : Int))
  match text with
  | [] => none
  | first :: rest =>
    if first = ch '-' then (value rest).map (fun n => -n)
    else if first = ch '+' then value rest
    else value text

/-- `int(value)`; a float is cut towards zero. -/
def pyInt : Json → Py Int
  | .int n => return n
  | .bool b => return if b then 1 else 0
  | .float .nan => raise .valueError
  | .float (.infinity _) => raise .overflowError
  | .float (.finite d) =>
    match (PyFloat.finite d).toInt? with
    | some whole => return whole
    | none =>
      let whole : Int := d.digits / 10 ^ d.exponent.natAbs
      return if d.negative then -whole else whole
  | .str s =>
    match intOfText s with
    | some n => return n
    | none => raise .valueError
  | _ => raise .typeError

def pyLen : Json → Py Nat
  | .arr items => return items.length
  | .str s => return s.length
  | .obj fields => return fields.length
  | _ => raise .typeError

/-- `items[i]`, counted from the end below 0. -/
def atIndex (items : List α) (i : Int) : Py α :=
  let position := if i < 0 then i + items.length else i
  if position < 0 then raise .indexError
  else
    match items[position.toNat]? with
    | some item => return item
    | none => raise .indexError

/-- `value[index]` with an index that is not a string constant. -/
def pyIndex (value index : Json) : Py Json :=
  match value with
  | .arr items =>
    match asInt? index with
    | some i => atIndex items i
    | none => raise .typeError
  | .str s =>
    match asInt? index with
    | some i => (atIndex s i).map (fun c => .str [c])
    | none => raise .typeError
  | .obj fields =>
    match index with
    | .str key => subscript (.obj fields) key
    | other => if hashable other then raise .keyError else raise .typeError
  | _ => raise .typeError

/-- `value >= n` for a natural number on the right. -/
def atLeastNat (value : Json) (n : Nat) : Py Bool := do
  let less ← natLess n value
  return less || decide (Json.pyEq value (.int n))

def pyTake (value : Json) (stop : Int) : Py Json :=
  let cut (length : Nat) : Nat := (if stop < 0 then stop + length else stop).toNat
  match value with
  | .arr items => return .arr (items.take (cut items.length))
  | .str s => return .str (s.take (cut s.length))
  | _ => raise .typeError

theorem natLess_of_asInt {value : Json} {i : Int} (number : asInt? value = some i) (n : Nat) :
    natLess n value = .ok (decide ((n : Int) < i)) := by
  cases value with
  | int value =>
    obtain rfl := Option.some.inj number
    rfl
  | bool value =>
    obtain rfl := Option.some.inj number
    cases value <;> simp [natLess, pure, Except.pure]
  | _ => cases number

theorem atIndex_nonneg {items : List α} {i : Int} (nonneg : 0 ≤ i) {item : α} :
    atIndex items i = .ok item ↔ items[i.toNat]? = some item := by
  have position : ¬i < 0 := by omega
  unfold atIndex
  simp only [position, if_false]
  cases items[i.toNat]? <;> simp [raise, pure, Except.pure]

end JJDai
