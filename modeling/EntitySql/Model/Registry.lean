import EntitySql.Model.Basic

/-!
# Registries

A registry keeps the models that have been built, one for each entity type. Looking a type up builds
its model on first use; a model that cannot be built is not kept, and a kept model stays whatever
becomes of the mapping.
-/

namespace EntitySql

/-- The models built so far, by entity type, the latest first. -/
structure Registry (Key : Type) where
  /-- The kept models. -/
  entries : List (Key × Model) := []

namespace Registry

variable {Key : Type} [DecidableEq Key]

/-- The kept model of a type. -/
def find? (r : Registry Key) (key : Key) : Option Model := r.entries.lookup key

/-- The model of a type whose current mapping is given, the registry afterwards, and whether the
mapping was consulted. -/
def get (r : Registry Key) (key : Key) (mapping : Mapping) :
    Except Error Model × Registry Key × Bool :=
  match r.find? key with
  | some m => (.ok m, r, false)
  | none =>
    match Model.build mapping with
    | .ok m => (.ok m, ⟨(key, m) :: r.entries⟩, true)
    | .error e => (.error e, r, true)

/-- The number of kept models. -/
def size (r : Registry Key) : Nat := r.entries.length

/-- Whether nothing has been kept yet. -/
def isEmpty (r : Registry Key) : Bool := r.entries.isEmpty

end Registry

end EntitySql
