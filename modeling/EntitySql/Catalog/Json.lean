import EntitySql.Catalog.Live
import EntitySql.Json.Writer

/-!
# Live objects as JSON

The JSON document that describes a live object: its kind first, then its parts.
-/

namespace EntitySql

/-- The document of an index. -/
def Index.toJson (i : Index) : Json :=
  .object [("name", .string i.name), ("columns", .strings i.columns)]

/-- The document of a uniqueness constraint. -/
def Unique.toJson (u : Unique) : Json :=
  .object [("name", .ofOption u.name), ("columns", .strings u.columns)]

/-- The document of a live column. -/
def LiveColumn.toJson (c : LiveColumn) : Json :=
  .object
    [("name", .string c.name), ("native_type", .string c.nativeType),
      ("primary_key", .bool c.primaryKey), ("autoincrement", .bool c.autoincrement),
      ("unique", .bool c.unique), ("not_null", .bool c.notNull),
      ("default", .ofOption c.default)]

/-- The document of a live object. -/
def LiveObject.toJson : LiveObject → Json
  | .table t =>
    .object
      [("kind", .string "table"), ("name", .string t.name),
        ("columns", .array (t.columns.map LiveColumn.toJson)),
        ("indexes", .array (t.indexes.map Index.toJson)),
        ("uniques", .array (t.uniques.map Unique.toJson))]
  | .view v =>
    .object
      [("kind", .string "view"), ("name", .string v.name), ("definition", .string v.definition)]

end EntitySql
