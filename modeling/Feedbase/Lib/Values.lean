import Feedbase.Lib.Numbers

/-!
# Values as JavaScript has them

What a client sends as JSON, or leaves out, is a value of no particular type. The operations of
the language convert it as they need it: to a number, to a text, to a truth value. Some objects
cannot be converted.

## Main definitions

* `Value` — what JSON writes, and `undefined`
* `Value.toText`, `Value.toNumber`, `Value.truthy` — the conversions
* `Value.get` — a property of a value
* `Value.IsPlain` — there is no object in it

## Main results

* `Value.IsPlain.toText` — a value without objects is converted
-/

inductive Value where
  | undefined
  | null
  | bool (b : Bool)
  | num (n : JsNum)
  | str (t : Text)
  | arr (elements : List Value)
  | obj (fields : List (Text × Value))

namespace Value

instance : Inhabited Value := ⟨undefined⟩

/-- A text constant. -/
def ofString (s : String) : Value := .str (Text.ofString s)

mutual

/-- `String(value)`. An object with a property `toString` of its own has no conversion. -/
def toText : Value → Option Text
  | undefined => some (Text.ofString "undefined")
  | null => some (Text.ofString "null")
  | bool b => some (Text.ofString (if b then "true" else "false"))
  | num n => some n.toText
  | str t => some t
  | arr elements => joinText elements
  | obj fields =>
    if fields.any fun f => f.1 == Text.ofString "toString" then none
    else some (Text.ofString "[object Object]")

/-- `elements.join(",")`. -/
def joinText : List Value → Option Text
  | [] => some []
  | v :: rest =>
    (elementText v).bind fun first =>
      (joinText rest).map fun others => if rest.isEmpty then first else first ++ 44 :: others

/-- What stands for an element. -/
def elementText : Value → Option Text
  | undefined => some []
  | null => some []
  | bool b => some (Text.ofString (if b then "true" else "false"))
  | num n => some n.toText
  | str t => some t
  | arr elements => joinText elements
  | obj fields =>
    if fields.any fun f => f.1 == Text.ofString "toString" then none
    else some (Text.ofString "[object Object]")

end

/-- `Number(value)`. -/
def toNumber : Value → Option JsNum
  | undefined => some .nan
  | null => some (.fin 0)
  | bool b => some (.fin (if b then 1 else 0))
  | num n => some n
  | str t => some (JsNum.ofText t)
  | v => v.toText.map JsNum.ofText

def truthy : Value → Bool
  | undefined => false
  | null => false
  | bool b => b
  | num n => !n.isFalsy
  | str t => t ≠ []
  | _ => true

/-- `v || w` -/
def orElse (v w : Value) : Value := if v.truthy then v else w

/-- A property that only an object can have, with `?.` for a value that has none. -/
def get (v : Value) (key : String) : Value :=
  match v with
  | obj fields => ((fields.find? fun f => f.1 == Text.ofString key).map Prod.snd).getD undefined
  | _ => undefined

/-- `v === "…"` -/
def isString (v : Value) (s : String) : Bool :=
  match v with
  | str t => t == Text.ofString s
  | _ => false

theorem eq_ofString {v : Value} {s : String} (h : v.isString s = true) : v = ofString s := by
  cases v with
  | str t => rw [ofString, ← beq_iff_eq.mp h]
  | _ => cases h

/-- There is no object in the value. -/
inductive IsPlain : Value → Prop where
  | undefined : IsPlain undefined
  | null : IsPlain null
  | bool (b : Bool) : IsPlain (bool b)
  | num (n : JsNum) : IsPlain (num n)
  | str (t : Text) : IsPlain (str t)
  | arr (elements : List Value) (h : ∀ v ∈ elements, IsPlain v) : IsPlain (arr elements)

theorem elementText_of_toText {v : Value} (h : v.toText.isSome) : (elementText v).isSome := by
  cases v with
  | undefined => rfl
  | null => rfl
  | _ => exact h

theorem joinText_isSome {elements : List Value} (h : ∀ v ∈ elements, v.toText.isSome) :
    (joinText elements).isSome := by
  induction elements with
  | nil => rfl
  | cons v rest ih =>
    have hfirst := elementText_of_toText (h v List.mem_cons_self)
    have hrest := ih fun w hw => h w (List.mem_cons_of_mem _ hw)
    obtain ⟨first, hfirst⟩ := Option.isSome_iff_exists.mp hfirst
    obtain ⟨others, hrest⟩ := Option.isSome_iff_exists.mp hrest
    rw [joinText, hfirst, hrest]
    rfl

/-- A value without objects is converted. -/
theorem IsPlain.toText {v : Value} (h : IsPlain v) : v.toText.isSome := by
  induction h with
  | arr elements _ ih => exact joinText_isSome ih
  | _ => rfl

theorem toNumber_isSome {v : Value} (h : v.toText.isSome) : v.toNumber.isSome := by
  cases v with
  | arr elements => exact Option.isSome_map.trans h
  | obj fields => exact Option.isSome_map.trans h
  | _ => rfl

end Value
