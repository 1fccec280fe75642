import PagedQuery.Field
import PagedQuery.Json.Record
import PagedQuery.Yaml.Reader

/-!
# Reading field metadata

* `FieldMetadata.ofJson?`, `Catalog.ofJson?`: from JSON;
* `FieldMetadata.ofYaml?`, `Catalog.ofYaml?`, `Catalog.read?`: from YAML.
-/

namespace PagedQuery

namespace FieldMetadata

/-- The fields of a record of metadata. -/
def shape : Json.Shape :=
  [["name"], ["type"], ["params"], ["time_pattern"], ["flags"]]

/-- Parameters by name. -/
def paramsOfJson? (value : Json) : Option (List (String × String)) :=
  value.members?.bind fun members =>
    members.mapM fun (key, value) => value.string?.map fun text => (key, text)

def ofJson? (value : Json) : Option FieldMetadata := do
  let r ← Json.Record.of? shape value
  some {
    name := ← r.required? "name" Json.string?
    fieldType := ← r.orDefault? "type" .unknown fun type => type.string?.bind FieldType.read?
    params := ← r.orDefault? "params" [] paramsOfJson?
    timePattern := ← r.nullable? "time_pattern" fun pattern =>
      (pattern.choice? Json.isNull).bind TimePattern.ofName?
    flags := ← r.orDefault? "flags" [] fun flags =>
      flags.items?.bind fun flags =>
        flags.mapM fun flag => (flag.choice? Json.isNull).bind FieldFlag.ofName? }

/-- Parameters by name, of which later ones count. -/
def paramsOfYaml? (value : Yaml) : Option (List (String × String)) :=
  value.members?.bind fun members =>
    let params? := members.mapM fun (member : String × Yaml) =>
      member.2.string?.map fun text => (member.1, text)
    params?.map fun params =>
      params.foldl (fun known param => known.filter (fun other => other.1 ≠ param.1) ++ [param]) []

def ofYaml? (value : Yaml) : Option FieldMetadata := do
  let r ← value.record? ["name", "type", "params", "time_pattern", "flags"]
  some {
    name := ← r.required? "name" Yaml.string?
    fieldType := ← r.orDefault? "type" .unknown fun type => type.string?.bind FieldType.read?
    params := ← r.orDefault? "params" [] paramsOfYaml?
    timePattern := ← r.orDefault? "time_pattern" none
      (Yaml.orNull? fun pattern => pattern.choice?.bind TimePattern.ofName?)
    flags := ← r.orDefault? "flags" []
      (Yaml.list? fun flag => flag.choice?.bind FieldFlag.ofName?) }

end FieldMetadata

namespace Catalog

/-- The catalog of a list of metadata. -/
def ofJson? (value : Json) : Option Catalog :=
  value.items?.bind fun fields => (fields.mapM FieldMetadata.ofJson?).map ofList

/-- The catalog of a document that lists metadata under `fields`. -/
def ofYaml? (value : Yaml) : Option Catalog := do
  let r ← value.record? ["fields"]
  (r.required? "fields" (Yaml.list? FieldMetadata.ofYaml?)).map ofList

/-- The catalog that a YAML text writes. -/
def read? (text : String) : Option Catalog :=
  (Yaml.read? text).bind ofYaml?

end Catalog

end PagedQuery
