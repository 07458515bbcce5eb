import ArtifactSelection.Descriptor.Encoding
import ArtifactSelection.Proofs.Attributes.Algebra
import ArtifactSelection.Proofs.Value.Reading
import ArtifactSelection.Settings

/-!
What is written as a data value and read again. Each record writes its fields in the order of their
names and leaves out what is not set, and reading takes a missing field for not set; so a record
comes back from its value, and any text format carries it.
-/

namespace ArtifactSelection

namespace Value

variable {α : Type} {names : List String} {fields : List (String × Value)} {v : Value}

/-! ### Records -/

def field? (v : Value) (name : String) : Option Value :=
  match v with
  | table fields => fields.lookup name
  | _ => none

structure Fields (names : List String) (fields : List (String × Value)) : Prop where
  ordered : (fields.map (·.1)).Sublist names
  portable : ∀ p ∈ fields, p.2.isPortable

namespace Fields

theorem nil : Fields [] [] := ⟨List.Sublist.slnil, List.forall_mem_nil _⟩

theorem cons (name : String) (first : v.isPortable) (rest : Fields names fields) :
    Fields (name :: names) ((name, v) :: fields) :=
  ⟨rest.ordered.cons_cons name, List.forall_mem_cons.2 ⟨first, rest.portable⟩⟩

theorem skip (name : String) (rest : Fields names fields) : Fields (name :: names) fields :=
  ⟨rest.ordered.cons name, rest.portable⟩

theorem append {names' : List String} {fields' : List (String × Value)}
    (first : Fields names fields) (rest : Fields names' fields') :
    Fields (names ++ names') (fields ++ fields') where
  ordered := List.map_append ▸ first.ordered.append rest.ordered
  portable := List.forall_mem_append.2 ⟨first.portable, rest.portable⟩

theorem setField (name : String) (s : Option String) : Fields [name] (setField name s) := by
  cases s with
  | none => exact nil.skip name
  | some s => exact nil.cons name rfl

end Fields

/-- A table that has fields under some of the names and no others. -/
inductive Record (names : List String) : Value → Prop where
  | table {fields : List (String × Value)} (h : Fields names fields) : Record names (table fields)

namespace Record

theorem isPortable (h : Record names v) (distinct : names.Nodup) : v.isPortable := by
  obtain ⟨⟨ordered, portable⟩⟩ := h
  rw [Value.isPortable, fieldsArePortable_eq_all, Bool.and_eq_true, List.all_eq_true,
    decide_eq_true_iff]
  exact ⟨ordered.nodup distinct, portable⟩

theorem fields?_eq (h : Record names v) (distinct : names.Nodup) (exact : Bool)
    (surplus : Surplus) : v.fields? names exact surplus = some v.field? := by
  obtain @⟨fields, ordered, -⟩ := h
  have known : fields.all (names.contains ·.1) = true :=
    List.all_eq_true.2 fun p hp => List.contains_iff_mem.2 (ordered.subset (List.mem_map_of_mem hp))
  have once : ((fields.map (·.1)).filter names.contains).Nodup :=
    (ordered.nodup distinct).filter _
  rw [fields?, known, Bool.not_true, Bool.and_false, if_neg Bool.false_ne_true, if_pos once]
  rfl

end Record

@[simp] theorem lookup_setField (name n : String) (s : Option String) :
    (setField name s).lookup n = if n == name then s.map text else none := by
  cases s with
  | none => simp [setField]
  | some s => cases same : n == name <;> simp [setField, List.lookup_cons, same]

theorem isPortable_map {write : α → Value} (each : ∀ a, (write a).isPortable) (l : List α) :
    (list (l.map write)).isPortable := by
  rw [isPortable, arePortable_eq_all, List.all_eq_true]
  exact List.forall_mem_map.2 fun a _ => each a

theorem isPortable_toNat (n : UInt64) : (integer n.toNat).isPortable := by
  have above : Int64.minValue.toInt ≤ 0 := by decide
  rw [isPortable, Bool.and_eq_true, decide_eq_true_iff, decide_eq_true_iff]
  exact ⟨Int.le_trans above (Int.natCast_nonneg _), Int.ofNat_lt.2 n.toNat_lt⟩

/-! ### What a field gives -/

@[simp] theorem required_some (read : Value → Option α) (v : Value) :
    required read (some v) = read v := rfl

@[simp] theorem defaulted_some (default : α) (read : Value → Option α) (v : Value) :
    defaulted default read (some v) = read v := rfl

@[simp] theorem text?_text (s : String) : text? (text s) = some s := rfl

@[simp] theorem bool?_bool (b : Bool) : bool? (bool b) = some b := rfl

@[simp] theorem optional_text (s : Option String) : optional text? (s.map text) = some s := by
  cases s <;> rfl

@[simp] theorem word?_toNat (n : UInt64) : word? (integer n.toNat) = some n := by
  have fits : n.toNat < UInt64.size := n.toNat_lt
  exact (dif_pos fits).trans (congrArg some (UInt64.ofNatLT_toNat n))

theorem mapM_map {β γ : Type} (read : β → Option γ) (write : γ → β)
    (h : ∀ c, read (write c) = some c) (l : List γ) : (l.map write).mapM read = some l := by
  induction l with
  | nil => rfl
  | cons c l ih =>
    rw [List.map_cons, List.mapM_cons, h, ih]
    rfl

theorem listOf?_map {read : Value → Option α} {write : α → Value}
    (h : ∀ a, read (write a) = some a) (l : List α) :
    listOf? read (list (l.map write)) = some l :=
  mapM_map read write h l

end Value

open Value (Fields Record Surplus listOf?_map)

/-! ### Names -/

namespace ModuleCoordinate

variable (m : ModuleCoordinate)

theorem fields_fields : Fields fieldNames m.fields :=
  ((Fields.nil.cons "version" rfl).cons "name" rfl).cons "group" rfl

theorem record_encode : Record fieldNames m.encode := .table m.fields_fields

theorem decode?_encode : decode? m.encode = some m := by
  rw [decode?, m.record_encode.fields?_eq (by decide)]
  rfl

end ModuleCoordinate

namespace ComponentId

variable (i : ComponentId)

theorem isPortable_encode : i.encode.isPortable := by
  cases i with
  | project build path =>
    have fields := ((Fields.nil.cons (v := .text path) "project_path" rfl).cons (v := .text build)
      "build_path" rfl).cons (v := .text "project") "kind" rfl
    exact (Record.table fields).isPortable (by decide)
  | published m =>
    have fields := m.fields_fields.cons (v := .text "module") "kind" rfl
    exact (Record.table fields).isPortable (by decide)

/-- The kind stands beside the fields of either sort, and their readers pass it over. -/
theorem decode?_encode : decode? i.encode = some i := by
  cases i <;> rfl

end ComponentId

namespace ArtifactName

variable (n : ArtifactName)

theorem record_encode : Record ["name", "type", "extension", "classifier"] n.encode :=
  .table ((((Fields.setField "classifier" n.classifier).cons "extension" rfl).cons "type" rfl).cons
    "name" rfl)

theorem decode?_encode : decode? n.encode = some n := by
  rw [decode?, n.record_encode.fields?_eq (by decide)]
  simp [encode, Value.field?, List.lookup_cons]

end ArtifactName

namespace Attributes

variable (a : Attributes)

theorem record_encode : Record a.keys a.encode := by
  refine .table ⟨?_, List.forall_mem_map.2 fun _ _ => rfl⟩
  rw [List.map_map]
  exact List.Sublist.refl _

theorem isPortable_encode : a.encode.isPortable := a.record_encode.isPortable a.nodup_keys

theorem decode?_encode : decode? a.encode = some a := by
  have entries := Value.mapM_map (fun p : String × Value => p.2.text?.map (p.1, ·))
    (fun p => (p.1, .text p.2)) (fun _ => rfl) a.entries
  rw [encode, decode?, entries, Option.map_some, ofList]
  exact congrArg some ((overlay_eq_insertAll ∅ a).symm.trans a.empty_overlay)

end Attributes

namespace ArtifactDeclaration

variable (a : ArtifactDeclaration)

theorem record_encode : Record ["name", "type", "extension", "classifier", "file"] a.encode :=
  .table (((((Fields.nil.cons "type" rfl).cons "name" rfl).append
    (.setField "extension" a.extension)).append (.setField "classifier" a.classifier)).append
    (.setField "file" a.file))

theorem decode?_encode (surplus : Surplus) : decode? surplus a.encode = some a := by
  rw [decode?, a.record_encode.fields?_eq (by decide)]
  simp [encode, Value.field?, List.lookup_cons, List.lookup_append]

theorem isPortable_encode : a.encode.isPortable := a.record_encode.isPortable (by decide)

end ArtifactDeclaration

namespace PhysicalDeclaration

variable (p : PhysicalDeclaration)

theorem record_encode : Record ["name", "attributes", "artifacts"] p.encode :=
  .table (((Fields.nil.cons "artifacts"
    (Value.isPortable_map ArtifactDeclaration.isPortable_encode _)).cons "attributes"
    p.attributes.isPortable_encode).cons "name" rfl)

theorem isPortable_encode : p.encode.isPortable := p.record_encode.isPortable (by decide)

theorem decode?_encode (surplus : Surplus) : decode? surplus p.encode = some p := by
  rw [decode?, p.record_encode.fields?_eq (by decide)]
  simp [encode, Value.field?, List.lookup_cons, p.attributes.decode?_encode,
    listOf?_map fun a => ArtifactDeclaration.decode?_encode a surplus]

end PhysicalDeclaration

namespace ConfigurationDeclaration

variable (c : ConfigurationDeclaration)

theorem record_encode : Record ["name", "attributes", "artifacts", "variants"] c.encode :=
  .table ((((Fields.nil.cons "variants"
    (Value.isPortable_map PhysicalDeclaration.isPortable_encode _)).cons "artifacts"
    (Value.isPortable_map ArtifactDeclaration.isPortable_encode _)).cons "attributes"
    c.attributes.isPortable_encode).cons "name" rfl)

theorem isPortable_encode : c.encode.isPortable := c.record_encode.isPortable (by decide)

theorem decode?_encode (surplus : Surplus) : decode? surplus c.encode = some c := by
  rw [decode?, c.record_encode.fields?_eq (by decide)]
  simp [encode, Value.field?, List.lookup_cons, c.attributes.decode?_encode,
    listOf?_map fun a => ArtifactDeclaration.decode?_encode a surplus,
    listOf?_map fun p => PhysicalDeclaration.decode?_encode p surplus]

end ConfigurationDeclaration

namespace ComponentDeclaration

variable (c : ComponentDeclaration)

theorem record_encode :
    Record ["group", "name", "version", "project", "build", "attributes"] c.encode :=
  .table ((((((Fields.nil.cons "version" rfl).cons "name" rfl).cons "group" rfl).append
    (.setField "project" c.project)).append (.setField "build" c.build)).append
    (Fields.nil.cons "attributes" c.attributes.isPortable_encode))

theorem isPortable_encode : c.encode.isPortable := c.record_encode.isPortable (by decide)

theorem decode?_encode (surplus : Surplus) : decode? surplus c.encode = some c := by
  rw [decode?, c.record_encode.fields?_eq (by decide)]
  simp [encode, Value.field?, List.lookup_cons, List.lookup_append, c.attributes.decode?_encode]

end ComponentDeclaration

namespace Descriptor

variable (d : Descriptor)

theorem record_encode : Record ["component", "graph-variants", "configurations"] d.encode := by
  have component := Fields.nil.cons "component" d.component.isPortable_encode
  have configurations := Fields.nil.cons "configurations"
    (Value.isPortable_map ConfigurationDeclaration.isPortable_encode d.configurations)
  cases graph : d.graphVariants with
  | none =>
    rw [encode, graph]
    exact .table ((component.append (Fields.nil.skip "graph-variants")).append configurations)
  | some l =>
    have names : (Value.list (l.map .text)).isPortable := Value.isPortable_map (fun _ => rfl) l
    rw [encode, graph]
    exact .table ((component.append (Fields.nil.cons "graph-variants" names)).append configurations)

theorem isPortable_encode : d.encode.isPortable := d.record_encode.isPortable (by decide)

theorem decode?_encode (surplus : Surplus) : decode? surplus d.encode = some d := by
  rw [decode?, d.record_encode.fields?_eq (by decide)]
  obtain ⟨component, graph, configurations⟩ := d
  have names (l : List String) : Value.listOf? Value.text? (.list (l.map .text)) = some l :=
    listOf?_map Value.text?_text l
  cases graph <;>
    simp [encode, Value.field?, List.lookup_cons, component.decode?_encode, names, Value.optional,
      listOf?_map fun c => ConfigurationDeclaration.decode?_encode c surplus]

end Descriptor

/-! ### Settings -/

namespace CacheSettings

variable (c : CacheSettings)

theorem record_encode : Record ["initial_capacity", "shard_amount"] c.encode := by
  have shards : ((c.shardAmount.map fun n => Value.integer n.toNat).getD .null).isPortable := by
    cases c.shardAmount with
    | none => rfl
    | some n => exact Value.isPortable_toNat n
  exact .table ((Fields.nil.cons "shard_amount" shards).cons "initial_capacity"
    (Value.isPortable_toNat c.initialCapacity))

theorem isPortable_encode : c.encode.isPortable := c.record_encode.isPortable (by decide)

theorem decode?_encode (surplus : Surplus) : decode? surplus c.encode = some c := by
  rw [decode?, c.record_encode.fields?_eq (by decide)]
  obtain ⟨capacity, shards⟩ := c
  cases shards <;> simp [encode, Value.field?, List.lookup_cons, Value.optional]

end CacheSettings

namespace Policy

variable (p : Policy)

theorem record_encode : Record ["lenient_overrides"] p.encode :=
  .table (Fields.nil.cons "lenient_overrides" rfl)

theorem isPortable_encode : p.encode.isPortable := p.record_encode.isPortable (by decide)

theorem decode?_encode (surplus : Surplus) : decode? surplus p.encode = some p := by
  rw [decode?, p.record_encode.fields?_eq (by decide)]
  rfl

end Policy

namespace Settings

variable (s : Settings)

theorem record_encode : Record ["cache", "selection"] s.encode :=
  .table ((Fields.nil.cons "selection" s.selection.isPortable_encode).cons "cache"
    s.cache.isPortable_encode)

theorem isPortable_encode : s.encode.isPortable := s.record_encode.isPortable (by decide)

theorem decode?_encode (surplus : Surplus) : decode? surplus s.encode = some s := by
  rw [decode?, s.record_encode.fields?_eq (by decide)]
  simp [encode, Value.field?, List.lookup_cons, s.cache.decode?_encode, s.selection.decode?_encode]

end Settings

/-! ### Texts -/

namespace TextFormat

/-- Whatever the format and its way with long lists: descriptors, settings and names are read from
their texts as they were written, and every accepted text of one can be exchanged for the text that
is written of it. -/
theorem carries_all (f : TextFormat) (surplus : Surplus) :
    f.Carries Descriptor.encode (Descriptor.decode? surplus) ∧
      f.Carries Settings.encode (Settings.decode? surplus) ∧
      f.Carries CacheSettings.encode (CacheSettings.decode? surplus) ∧
      f.Carries ModuleCoordinate.encode ModuleCoordinate.decode? ∧
      f.Carries ComponentId.encode ComponentId.decode? ∧
      f.Carries ArtifactName.encode ArtifactName.decode? ∧
      f.Carries Value.text Value.text? := by
  exact ⟨f.carries Descriptor.isPortable_encode fun d => d.decode?_encode surplus,
    f.carries Settings.isPortable_encode fun s => s.decode?_encode surplus,
    f.carries CacheSettings.isPortable_encode fun c => c.decode?_encode surplus,
    f.carries (fun m => m.record_encode.isPortable (by decide)) ModuleCoordinate.decode?_encode,
    f.carries ComponentId.isPortable_encode ComponentId.decode?_encode,
    f.carries (fun n => n.record_encode.isPortable (by decide)) ArtifactName.decode?_encode,
    f.carries (fun _ => rfl) Value.text?_text⟩

/-- What a text leaves out or has as null is a default in the text written for it, or left out. -/
theorem carries_all_json :
    let d : Descriptor :=
      { component := { group := "org", name := "lib", version := "1" }
        configurations := [{ name := "api", artifacts := [{ name := "lib" }] }] }
    (json.read?
        ("\x7b\"component\": \x7b\"version\": \"1\", \"group\": \"org\",\n" ++
          "  \"name\": \"lib\"\x7d,\n" ++
          " \"configurations\": [\x7b\"name\": \"api\",\n" ++
          "  \"artifacts\": [\x7b\"name\": \"lib\", \"file\": null\x7d]\x7d]\x7d")).bind
        (Descriptor.decode? .refused) = some d ∧
      json.write d.encode =
        "\x7b\"component\":\x7b\"group\":\"org\",\"name\":\"lib\",\"version\":\"1\"," ++
          "\"attributes\":\x7b\x7d\x7d,\"configurations\":[\x7b\"name\":\"api\"," ++
          "\"attributes\":\x7b\x7d,\"artifacts\":[\x7b\"name\":\"lib\",\"type\":\"jar\"\x7d]," ++
          "\"variants\":[]\x7d]\x7d" ∧
      (json.read? (json.write d.encode)).bind (Descriptor.decode? .refused) = some d :=
  ⟨by decide +kernel, by decide +kernel, (carries_all json .refused).1.decode?_write _⟩

end TextFormat

end ArtifactSelection
