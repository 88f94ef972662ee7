import ChipEight.Proofs.Json.Members

/-!
Which edits of a JSON tree leave what is read from it alone. A record may have the members of
its object in any order, unknown members among them, and need not have those that hold a
default; what it must not have is a known member twice. Both laws pass from the fields of a
record to the record, and on to the lists, maps and optional values it stands in.
-/

namespace ChipEight.Json

/-- Values of a type as JSON trees: how they are read, which edits of a tree the reader must
not notice, and which trees it must not accept. -/
structure Schema (α : Type) where
  read : Value → Option α
  edits : Value → Value → Prop
  repeats : Value → Prop

structure Schema.Lawful {α : Type} (schema : Schema α) : Prop where
  read_of_edits : ∀ {before after : Value} {content : α}, schema.edits before after →
    schema.read before = some content → schema.read after = some content
  read_of_repeats : ∀ {value : Value}, schema.repeats value → schema.read value = none

theorem Schema.Lawful.read_of_many_edits {α : Type} {schema : Schema α} (h : schema.Lawful)
    {before after : Value} {content : α}
    (hedits : Relation.ReflTransGen schema.edits before after)
    (hread : schema.read before = some content) : schema.read after = some content := by
  induction hedits with
  | refl => exact hread
  | tail _ hedit ih => exact h.read_of_edits hedit ih

namespace Schema

variable {α : Type}

/-- A value without records in it. -/
def plain (read : Value → Option α) : Schema α where
  read := read
  edits _ _ := False
  repeats _ := False

theorem plain_lawful (read : Value → Option α) : (plain read).Lawful where
  read_of_edits := False.elim
  read_of_repeats := False.elim

variable (schema : Schema α)

/-- An edit of one item. -/
inductive ListEdit : Value → Value → Prop where
  | item {v w : Value} (before after : List Value) : schema.edits v w →
      ListEdit (.array (before ++ v :: after)) (.array (before ++ w :: after))

inductive ListRepeats : Value → Prop where
  | item {items : List Value} {v : Value} : v ∈ items → schema.repeats v →
      ListRepeats (.array items)

def list : Schema (List α) where
  read := Value.list? schema.read
  edits := schema.ListEdit
  repeats := schema.ListRepeats

/-- An edit of the value of one entry. -/
inductive MapEdit : Value → Value → Prop where
  | entry {v w : Value} (name : Option String) (before after : List (Option String × Value)) :
      schema.edits v w →
      MapEdit (.object (before ++ (name, v) :: after)) (.object (before ++ (name, w) :: after))

inductive MapRepeats : Value → Prop where
  | entry {members : List (Option String × Value)} {name : Option String} {v : Value} :
      (name, v) ∈ members → schema.repeats v → MapRepeats (.object members)

def map : Schema (List (String × α)) where
  read := Value.map? schema.read
  edits := schema.MapEdit
  repeats := schema.MapRepeats

/-- A value or `null`, and an edit does not lead from one to the other. -/
def optional : Schema (Option α) where
  read := Value.optional? schema.read
  edits v w := v ≠ .null ∧ w ≠ .null ∧ schema.edits v w
  repeats v := v ≠ .null ∧ schema.repeats v

variable {schema}

theorem list_lawful (h : schema.Lawful) : schema.list.Lawful where
  read_of_edits := by
    rintro _ _ content ⟨before, after, hedit⟩ hread
    obtain ⟨found, hfound⟩ := exists_of_mapM_eq_some hread _ List.mem_append_cons_self
    exact (mapM_replace ((h.read_of_edits hedit hfound).trans hfound.symm) before after).trans
      hread
  read_of_repeats := by
    rintro _ ⟨hmem, hrepeats⟩
    refine Option.eq_none_iff_forall_ne_some.mpr fun content hread => ?_
    obtain ⟨found, hfound⟩ := exists_of_mapM_eq_some hread _ hmem
    exact Option.some_ne_none _ (hfound.symm.trans (h.read_of_repeats hrepeats))

theorem map_lawful (h : schema.Lawful) : schema.map.Lawful where
  read_of_edits := by
    rintro _ _ content ⟨name, before, after, hedit⟩ hread
    obtain ⟨found, hfound⟩ := exists_read_of_map? hread _ List.mem_append_cons_self
    exact (map?_replace ((h.read_of_edits hedit hfound).trans hfound.symm) name before
      after).trans hread
  read_of_repeats := by
    rintro _ ⟨hmem, hrepeats⟩
    refine Option.eq_none_iff_forall_ne_some.mpr fun content hread => ?_
    obtain ⟨found, hfound⟩ := exists_read_of_map? hread _ hmem
    exact Option.some_ne_none _ (hfound.symm.trans (h.read_of_repeats hrepeats))

theorem optional?_of_ne_null {read : Value → Option α} {value : Value} (h : value ≠ .null) :
    value.optional? read = (read value).map some := by
  cases value with
  | null => exact absurd rfl h
  | _ => rfl

theorem optional_lawful (h : schema.Lawful) : schema.optional.Lawful where
  read_of_edits := by
    rintro v w content ⟨hv, hw, hedit⟩ hread
    obtain ⟨found, hfound, rfl⟩ :=
      Option.map_eq_some_iff.mp ((optional?_of_ne_null hv).symm.trans hread)
    exact (optional?_of_ne_null hw).trans (by rw [h.read_of_edits hedit hfound, Option.map_some])
  read_of_repeats := by
    rintro v ⟨hv, hrepeats⟩
    exact (optional?_of_ne_null hv).trans (by rw [h.read_of_repeats hrepeats, Option.map_none])

end Schema

/-- A field of a record: the name of its member, and its place in the structure. -/
structure Field (S : Type) where
  name : String
  {Content : Type}
  schema : Schema Content
  get : S → Content

/-- A field without records in it. -/
def Field.plain {S Content : Type} (name : String) (read : Value → Option Content)
    (get : S → Content) : Field S :=
  { name, schema := .plain read, get }

/-- The fields of a record in the order of an array, and what stands for those that are
missing. -/
structure Layout (S : Type) where
  fields : List (Field S)
  missing : S

namespace Layout

variable {S : Type}

def names (layout : Layout S) : List String :=
  layout.fields.map (·.name)

def default (layout : Layout S) (field : Field S) : field.Content :=
  field.get layout.missing

def readField (layout : Layout S) (field : Field S) (record : Record) : Option field.Content :=
  record.field field.name field.schema.read (layout.default field)

/-- Edits of a record. The members of an object may be put in another order, unknown ones added,
and known ones left out where they hold the default. All other edits take place within a field,
also in a record that is written as an array. -/
inductive Edit (layout : Layout S) : Value → Value → Prop where
  | reorder {members members' : List (Option String × Value)} :
      members.Perm members' → Edit layout (.object members) (.object members')
  | add {name : String} (value : Value) (before after : List (Option String × Value)) :
      name ∉ layout.names →
      Edit layout (.object (before ++ after)) (.object (before ++ (some name, value) :: after))
  | leaveOut {field : Field S} {value : Value} (before after : List (Option String × Value)) :
      field ∈ layout.fields → field.schema.read value = some (layout.default field) →
      Edit layout (.object (before ++ (some field.name, value) :: after))
        (.object (before ++ after))
  | member {field : Field S} {v w : Value} (before after : List (Option String × Value)) :
      field ∈ layout.fields → field.schema.edits v w →
      Edit layout (.object (before ++ (some field.name, v) :: after))
        (.object (before ++ (some field.name, w) :: after))
  | item {field : Field S} {v w : Value} (before after : List Value) :
      layout.fields[before.length]? = some field → field.schema.edits v w →
      Edit layout (.array (before ++ v :: after)) (.array (before ++ w :: after))

/-- A known member stands twice in the record, or in a record within one of its fields. -/
inductive Repeats (layout : Layout S) : Value → Prop where
  | twice {field : Field S} (v w : Value)
      (before between after : List (Option String × Value)) : field ∈ layout.fields →
      Repeats layout
        (.object (before ++ (some field.name, v) :: between ++ (some field.name, w) :: after))
  | member {field : Field S} {v : Value} {members : List (Option String × Value)} :
      field ∈ layout.fields → (some field.name, v) ∈ members → field.schema.repeats v →
      Repeats layout (.object members)
  | item {field : Field S} {v : Value} (before after : List Value) :
      layout.fields[before.length]? = some field → field.schema.repeats v →
      Repeats layout (.array (before ++ v :: after))

def schema (layout : Layout S) (read : Value → Option S) : Schema S where
  read := read
  edits := layout.Edit
  repeats := layout.Repeats

/-- The reader finds each field for itself, in the member of its name. -/
structure ReadBy (layout : Layout S) (read : Value → Option S) : Prop where
  nodup : layout.names.Nodup
  lawful : ∀ field ∈ layout.fields, field.schema.Lawful
  read_eq_some_iff : ∀ {value : Value} {content : S}, read value = some content ↔
    ∃ record, value.record? layout.names = some record ∧
      ∀ field ∈ layout.fields, layout.readField field record = some (field.get content)

section Fields

variable {layout : Layout S} {field : Field S} {record : Record}

theorem readField_of_some {value : Value} (h : record field.name = some value) :
    layout.readField field record = field.schema.read value := by
  rw [readField, Record.field, h]

theorem readField_of_none (h : record field.name = none) :
    layout.readField field record = some (layout.default field) := by
  rw [readField, Record.field, h]

theorem readField_congr {record' : Record} (h : record field.name = record' field.name) :
    layout.readField field record = layout.readField field record' := by
  rw [readField, readField, Record.field, Record.field, h]

theorem name_mem_names (h : field ∈ layout.fields) : field.name ∈ layout.names :=
  List.mem_map_of_mem h

theorem getElem?_names {position : Nat} (h : layout.fields[position]? = some field) :
    layout.names[position]? = some field.name := by
  rw [names, List.getElem?_map, h, Option.map_some]

/-- What one record has in its fields, another has as well. -/
def Keeps (layout : Layout S) (record record' : Record) : Prop :=
  ∀ field ∈ layout.fields, ∀ content, layout.readField field record = some content →
    layout.readField field record' = some content

theorem keeps_of_eq {record' : Record} (h : ∀ name ∈ layout.names, record name = record' name) :
    layout.Keeps record record' := fun _ hfield _ hread =>
  (readField_congr (h _ (name_mem_names hfield))).symm.trans hread

end Fields

namespace ReadBy

variable {layout : Layout S} {read : Value → Option S} (h : layout.ReadBy read)
variable {field : Field S} {v w : Value} {record record' : Record}
include h

/-- Two records that differ at the name of one field only. -/
theorem keeps_of_ne (hfield : field ∈ layout.fields)
    (heq : ∀ name, name ≠ field.name → record name = record' name)
    (hread : ∀ content, layout.readField field record = some content →
      layout.readField field record' = some content) : layout.Keeps record record' := by
  intro other hother content hcontent
  by_cases hname : other.name = field.name
  · obtain rfl : other = field := List.inj_on_of_nodup_map h.nodup hother hfield hname
    exact hread content hcontent
  · exact (readField_congr (heq other.name hname)).symm.trans hcontent

theorem keeps_of_edits (hfield : field ∈ layout.fields) (hedits : field.schema.edits v w)
    (hv : record field.name = some v) (hw : record' field.name = some w)
    (heq : ∀ name, name ≠ field.name → record name = record' name) :
    layout.Keeps record record' := by
  refine h.keeps_of_ne hfield heq fun content hread => ?_
  rw [readField_of_some hv] at hread
  rw [readField_of_some hw, (h.lawful field hfield).read_of_edits hedits hread]

/-- An edited record is a record, in which every field has what it had. -/
theorem exists_record_of_edit (hedit : layout.Edit v w)
    (hrecord : v.record? layout.names = some record) :
    ∃ record', w.record? layout.names = some record' ∧ layout.Keeps record record' := by
  cases hedit with
  | reorder hperm =>
    obtain ⟨record', hrecord', heq⟩ := record?_reorder hperm hrecord
    exact ⟨record', hrecord', keeps_of_eq heq⟩
  | add value before after hname =>
    obtain ⟨record', hrecord', heq⟩ := record?_add value hname hrecord
    exact ⟨record', hrecord', keeps_of_eq heq⟩
  | leaveOut before after hfield hdefault =>
    obtain ⟨hvalue, record', hrecord', hnone, heq⟩ :=
      record?_leaveOut (name_mem_names hfield) hrecord
    refine ⟨record', hrecord', h.keeps_of_ne hfield heq fun content hread => ?_⟩
    -- What has been left out is what stands for a missing member.
    rw [readField_of_none hnone, ← hdefault, ← readField_of_some hvalue, hread]
  | member before after hfield hedits =>
    obtain ⟨hv, record', hrecord', hw, heq⟩ := record?_member _ (name_mem_names hfield) hrecord
    exact ⟨record', hrecord', h.keeps_of_edits hfield hedits hv hw heq⟩
  | item before after hfield hedits =>
    obtain ⟨hv, record', hrecord', hw, heq⟩ :=
      record?_item _ h.nodup (getElem?_names hfield) hrecord
    exact ⟨record', hrecord', h.keeps_of_edits (List.mem_of_getElem? hfield) hedits hv hw heq⟩

/-- Some field cannot be read, unless there is no record in the first place. -/
theorem exists_unreadable (hrepeats : layout.Repeats v)
    (hrecord : v.record? layout.names = some record) :
    ∃ field ∈ layout.fields, layout.readField field record = none := by
  cases hrepeats with
  | @twice field v w before between after hfield =>
    obtain ⟨-, hcount, -⟩ := record?_object_eq_some_iff.mp hrecord
    have htwice := hcount field.name (name_mem_names hfield)
    simp only [List.countP_append, List.countP_cons, decide_true, if_true] at htwice
    omega
  | @member field v members hfield hmem hrepeats =>
    obtain ⟨-, hcount, rfl⟩ := record?_object_eq_some_iff.mp hrecord
    have hvalue := (lookup_eq_some_iff_mem (hcount _ (name_mem_names hfield)) v).mpr hmem
    exact ⟨field, hfield,
      (readField_of_some hvalue).trans ((h.lawful field hfield).read_of_repeats hrepeats)⟩
  | @item field v before after hfield hrepeats =>
    have hmem := List.mem_of_getElem? hfield
    obtain ⟨hvalue, -⟩ := record?_item v h.nodup (getElem?_names hfield) hrecord
    exact ⟨field, hmem,
      (readField_of_some hvalue).trans ((h.lawful field hmem).read_of_repeats hrepeats)⟩

theorem schema_lawful : (layout.schema read).Lawful where
  read_of_edits hedit hread := by
    obtain ⟨record, hrecord, hfields⟩ := h.read_eq_some_iff.mp hread
    obtain ⟨record', hrecord', hkeeps⟩ := h.exists_record_of_edit hedit hrecord
    exact h.read_eq_some_iff.mpr
      ⟨record', hrecord', fun field hfield => hkeeps field hfield _ (hfields field hfield)⟩
  read_of_repeats hrepeats := by
    refine Option.eq_none_iff_forall_ne_some.mpr fun content hread => ?_
    obtain ⟨record, hrecord, hfields⟩ := h.read_eq_some_iff.mp hread
    obtain ⟨field, hfield, hnone⟩ := h.exists_unreadable hrepeats hrecord
    exact Option.some_ne_none _ ((hfields field hfield).symm.trans hnone)

end ReadBy

end Layout

end ChipEight.Json
