import RuleTable.Json.Basic

/-!
# Records

Reading the fields of a record from a JSON value. An object gives the fields by name: other names
are passed over, and a name may not occur twice. An array gives them by place, in the order in
which the record lists them, and may end early but hold no more. A field that is not given takes
its default.
-/

set_option autoImplicit false

namespace RuleTable

namespace Json

/-- The fields that a value gives of the named ones; `none` when it is not a record of them. -/
def fieldsOf? (names : List Text) : Json → Option (List (Text × Json))
  | array items => if items.length ≤ names.length then some (names.zip items) else none
  | object fields => do
      let named ← fields.mapM fun (key, value) => (textOfPieces? key).map fun key => (key, value)
      let given := named.filter (names.contains ·.1)
      if (given.map (·.1)).Nodup then some given else none
  | _ => none

/-- The field of a name, read; its default when it is not given. -/
def fieldOr {α : Type} (fields : List (Text × Json)) (name : Text) (default : α)
    (read? : Json → Option α) : Option α :=
  match fields.lookup name with
  | some value => read? value
  | none => some default

end Json

end RuleTable
