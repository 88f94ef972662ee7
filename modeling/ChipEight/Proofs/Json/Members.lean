import ChipEight.Json.Record
import Mathlib.Data.List.Nodup
import Mathlib.Data.List.Perm.Basic
import Mathlib.Data.Set.List

/-!
Members of objects: how they are looked up by name, and what the readers of records and of
maps make of them.
-/

namespace ChipEight.Json

section Lists

variable {α β κ : Type}

theorem exists_of_mapM_eq_some {f : α → Option β} {items : List α} {found : List β}
    (h : items.mapM f = some found) : ∀ item ∈ items, ∃ result, f item = some result := by
  induction items generalizing found with
  | nil => simp
  | cons first rest ih =>
    rw [List.mapM_cons] at h
    obtain ⟨result, hfirst, hrest⟩ := Option.bind_eq_some_iff.mp h
    obtain ⟨later, hlater, -⟩ := Option.bind_eq_some_iff.mp hrest
    exact List.forall_mem_cons.mpr ⟨⟨result, hfirst⟩, ih hlater⟩

theorem mapM_replace {f : α → Option β} {v w : α} (h : f v = f w) (before after : List α) :
    (before ++ v :: after).mapM f = (before ++ w :: after).mapM f := by
  simp only [List.mapM_append, List.mapM_cons, h]

/-- Two passes over a list, each of which may fail, are one. -/
theorem mapM_bind_mapM (f : α → Option β) (g : β → Option κ) (items : List α) :
    ((items.mapM f).bind fun found => found.mapM g) =
      items.mapM fun item => (f item).bind g := by
  induction items with
  | nil => rfl
  | cons first rest ih =>
    simp only [List.mapM_cons, ← ih]
    cases f first with
    | none => rfl
    | some found =>
      -- The second pass may fail at the first item and the first pass at a later one.
      cases rest.mapM f with
      | none => cases hg : g found <;> simp [hg]
      | some later => simp

variable [BEq κ] [LawfulBEq κ]

theorem lookup_insert_of_ne {key other : κ} (h : key ≠ other) (value : α)
    (before after : List (κ × α)) :
    (before ++ (other, value) :: after).lookup key = (before ++ after).lookup key := by
  have hkey : (key == other) = false := beq_false_of_ne h
  simp only [List.lookup_append, List.lookup_cons, hkey]

variable [DecidableEq κ]

/-- With a key that occurs once at most, the order of the entries plays no role. -/
theorem lookup_eq_some_iff_mem {entries : List (κ × α)} {key : κ}
    (h : entries.countP (·.1 = key) ≤ 1) (value : α) :
    entries.lookup key = some value ↔ (key, value) ∈ entries := by
  rw [List.lookup_eq_some_iff]
  constructor
  · rintro ⟨before, after, rfl, -⟩
    simp
  · intro hmem
    obtain ⟨before, after, rfl⟩ := List.append_of_mem hmem
    refine ⟨before, after, rfl, fun entry hentry => ?_⟩
    rw [List.countP_append, List.countP_cons_of_pos (by simp)] at h
    have hnone : before.countP (·.1 = key) = 0 := by omega
    have hne : entry.1 ≠ key := by simpa using List.countP_eq_zero.mp hnone entry hentry
    simpa using hne.symm

theorem lookup_eq_none_of_countP {before after : List (κ × α)} {key : κ} {value : α}
    (h : (before ++ (key, value) :: after).countP (·.1 = key) ≤ 1) :
    (before ++ after).lookup key = none := by
  rw [List.countP_append, List.countP_cons_of_pos (by simp), ← Nat.add_assoc,
    ← List.countP_append] at h
  have hnone : (before ++ after).countP (·.1 = key) = 0 := by omega
  rw [List.lookup_eq_none_iff]
  intro entry hentry
  have hne : entry.1 ≠ key := by simpa using List.countP_eq_zero.mp hnone entry hentry
  simpa using hne.symm

theorem lookup_perm {entries entries' : List (κ × α)} {key : κ} (h : entries.Perm entries')
    (hcount : entries.countP (·.1 = key) ≤ 1) : entries.lookup key = entries'.lookup key := by
  refine Option.ext fun value => ?_
  rw [lookup_eq_some_iff_mem hcount, h.mem_iff, lookup_eq_some_iff_mem (h.countP_eq _ ▸ hcount)]

end Lists

section Maps

variable {α : Type} {read : Value → Option α}

/-- The name and the value of an entry side by side. -/
def member? (read : Value → Option α) (member : Option String × Value) : Option (String × α) :=
  member.1.bind fun name => (read member.2).map (name, ·)

/-- Names and values are read separately, but one entry decides on its own whether it can be
read. -/
theorem map?_object (read : Value → Option α) (members : List (Option String × Value)) :
    (Value.object members).map? read =
      (members.mapM (member? read)).map fun entries =>
        lastOfRuns (entries.mergeSort fun a b => a.1 ≤ b.1) := by
  have hmember : member? read = fun member =>
      (member.1.map (·, member.2)).bind fun entry => (read entry.2).map (entry.1, ·) := by
    funext member
    rw [Option.bind_map]
    rfl
  rw [hmember, ← mapM_bind_mapM, Option.map_eq_bind, Option.bind_assoc]
  rfl

theorem exists_read_of_map? {members : List (Option String × Value)}
    {content : List (String × α)} (h : (Value.object members).map? read = some content) :
    ∀ member ∈ members, ∃ found, read member.2 = some found := by
  rw [map?_object] at h
  obtain ⟨entries, hentries, -⟩ := Option.map_eq_some_iff.mp h
  intro member hmember
  obtain ⟨entry, hentry⟩ := exists_of_mapM_eq_some hentries member hmember
  obtain ⟨name, -, hread⟩ := Option.bind_eq_some_iff.mp hentry
  obtain ⟨found, hfound, -⟩ := Option.map_eq_some_iff.mp hread
  exact ⟨found, hfound⟩

theorem map?_replace {v w : Value} (h : read v = read w)
    (name : Option String) (before after : List (Option String × Value)) :
    (Value.object (before ++ (name, v) :: after)).map? read =
      (Value.object (before ++ (name, w) :: after)).map? read := by
  rw [map?_object, map?_object, mapM_replace (v := (name, v)) (w := (name, w))]
  simp only [member?, h]

theorem mem_of_mem_lastOfRuns {entries : List (String × α)} {entry : String × α}
    (h : entry ∈ lastOfRuns entries) : entry ∈ entries := by
  fun_induction lastOfRuns entries with
  | case1 first next rest hsame ih => exact List.mem_cons_of_mem _ (ih h)
  | case2 first next rest hother ih =>
    rcases List.mem_cons.mp h with rfl | hlater
    · exact List.mem_cons_self
    · exact List.mem_cons_of_mem _ (ih hlater)
  | case3 => exact h

/-- Where entries of one name stand side by side, only one of them is left. -/
theorem nodup_lastOfRuns {entries : List (String × α)}
    (h : entries.Pairwise fun a b => a.1 ≤ b.1) : ((lastOfRuns entries).map Prod.fst).Nodup := by
  fun_induction lastOfRuns entries with
  | case1 first next rest hsame ih => exact ih h.of_cons
  | case2 first next rest hother ih =>
    obtain ⟨hfirst, hrest⟩ := List.pairwise_cons.mp h
    rw [List.map_cons, List.nodup_cons]
    refine ⟨fun hmem => ?_, ih hrest⟩
    obtain ⟨entry, hentry, hname⟩ := List.mem_map.mp hmem
    rcases List.mem_cons.mp (mem_of_mem_lastOfRuns hentry) with rfl | hlater
    · exact hother hname.symm
    · -- An equal name further on would enclose the name in between.
      have hbetween : next.1 ≤ entry.1 := List.rel_of_pairwise_cons hrest hlater
      rw [hname] at hbetween
      exact hother (String.le_antisymm (hfirst next List.mem_cons_self) hbetween)
  | case3 entries hshort =>
    match entries, hshort with
    | [], _ => simp
    | [entry], _ => simp
    | first :: next :: rest, hshort => exact absurd rfl (hshort first next rest)

theorem nodup_map? {read : Value → Option α} {value : Value}
    {entries : List (String × α)} (h : value.map? read = some entries) :
    (entries.map Prod.fst).Nodup := by
  cases value with
  | object members =>
    rw [map?_object] at h
    obtain ⟨found, -, rfl⟩ := Option.map_eq_some_iff.mp h
    apply nodup_lastOfRuns
    have hsorted : (found.mergeSort fun a b => a.1 ≤ b.1).Pairwise
        fun a b => decide (a.1 ≤ b.1) = true := by
      apply List.pairwise_mergeSort
      · intro a b c hab hbc
        exact decide_eq_true (String.le_trans (of_decide_eq_true hab) (of_decide_eq_true hbc))
      · intro a b
        simpa using String.le_total a.1 b.1
    exact hsorted.imp of_decide_eq_true
  | _ => cases h

end Maps

section Records

variable {names : List String} {record : Record}

theorem named?_eq_some_iff {members : List (Option String × Value)}
    {found : List (String × Value)} :
    named? members = some found ↔ members = found.map (Prod.map some id) := by
  induction members generalizing found with
  | nil => cases found <;> simp [named?]
  | cons member rest ih =>
    obtain ⟨name, value⟩ := member
    have hcons : named? ((name, value) :: rest) =
        name.bind fun name => (named? rest).map ((name, value) :: ·) := by
      cases name <;> simp [named?, Option.map_eq_bind]
    simp only [hcons, Option.bind_eq_some_iff, Option.map_eq_some_iff, ih]
    constructor
    · rintro ⟨name, rfl, later, rfl, rfl⟩
      rfl
    · cases found with
      | nil => rintro ⟨⟩
      | cons first later =>
        rintro ⟨rfl, rfl⟩
        exact ⟨first.1, rfl, later, rfl, rfl⟩

theorem lookup_map_some (members : List (String × Value)) (name : String) :
    (members.map (Prod.map some id)).lookup (some name) = members.lookup name := by
  induction members with
  | nil => rfl
  | cons member rest ih =>
    rw [List.map_cons, List.lookup_cons, List.lookup_cons, ih]
    rfl

theorem countP_map_some (members : List (String × Value)) (name : String) :
    (members.map (Prod.map some id)).countP (·.1 = some name) = members.countP (·.1 = name) := by
  rw [List.countP_map]
  congr
  funext member
  simp

/-- An object is read as a record if every name in it is a text, and no known one occurs
twice. -/
theorem record?_object_eq_some_iff {members : List (Option String × Value)} :
    (Value.object members).record? names = some record ↔
      (∀ member ∈ members, member.1.isSome) ∧
      (∀ name ∈ names, members.countP (·.1 = some name) ≤ 1) ∧
      record = fun name => members.lookup (some name) := by
  constructor
  · intro h
    obtain ⟨found, hnamed, hrecord⟩ := Option.bind_eq_some_iff.mp h
    obtain ⟨hunambiguous, ⟨⟩⟩ := Option.ite_none_right_eq_some.mp hrecord
    obtain rfl := named?_eq_some_iff.mp hnamed
    refine ⟨List.forall_mem_map.mpr fun _ _ => rfl, fun name hname => ?_,
      by simp only [lookup_map_some]⟩
    rw [countP_map_some]
    exact of_decide_eq_true (List.all_eq_true.mp hunambiguous name hname)
  · rintro ⟨hnames, hcount, rfl⟩
    have hrange : members ∈ Set.range (List.map (Prod.map some id)) := by
      rw [Set.range_list_map]
      rintro ⟨_ | name, value⟩ hmember
      · cases hnames _ hmember
      · exact ⟨(name, value), rfl⟩
    obtain ⟨found, rfl⟩ := hrange
    simp only [countP_map_some] at hcount
    refine Option.bind_eq_some_iff.mpr ⟨found, named?_eq_some_iff.mpr rfl, ?_⟩
    simp only [lookup_map_some]
    exact if_pos (List.all_eq_true.mpr fun name hname => decide_eq_true (hcount name hname))

variable {before after : List (Option String × Value)}

theorem record?_reorder {members members' : List (Option String × Value)}
    (hperm : members.Perm members')
    (hrecord : (Value.object members).record? names = some record) :
    ∃ record', (Value.object members').record? names = some record' ∧
      ∀ name ∈ names, record name = record' name := by
  obtain ⟨hnames, hcount, rfl⟩ := record?_object_eq_some_iff.mp hrecord
  refine ⟨_, record?_object_eq_some_iff.mpr ⟨?_, ?_, rfl⟩, ?_⟩
  · exact fun member hmember => hnames member (hperm.mem_iff.mpr hmember)
  · exact fun name hname => (hperm.countP_eq _).symm.trans_le (hcount name hname)
  · exact fun name hname => lookup_perm hperm (hcount name hname)

theorem record?_add {name : String} (value : Value) (hname : name ∉ names)
    (hrecord : (Value.object (before ++ after)).record? names = some record) :
    ∃ record', (Value.object (before ++ (some name, value) :: after)).record? names =
        some record' ∧ ∀ other ∈ names, record other = record' other := by
  obtain ⟨hnames, hcount, rfl⟩ := record?_object_eq_some_iff.mp hrecord
  have hne : ∀ other ∈ names, some other ≠ some name :=
    fun other hother => by rintro ⟨⟩; exact hname hother
  refine ⟨_, record?_object_eq_some_iff.mpr ⟨?_, fun other hother => ?_, rfl⟩, ?_⟩
  · simpa only [List.forall_mem_append, List.forall_mem_cons, Option.isSome_some, true_and]
      using hnames
  · rw [List.countP_append, List.countP_cons_of_neg (by simpa using (hne other hother).symm),
      ← List.countP_append]
    exact hcount other hother
  · exact fun other hother => (lookup_insert_of_ne (hne other hother) value before after).symm

theorem record?_leaveOut {name : String} {value : Value} (hname : name ∈ names)
    (hrecord : (Value.object (before ++ (some name, value) :: after)).record? names =
      some record) :
    record name = some value ∧ ∃ record',
      (Value.object (before ++ after)).record? names = some record' ∧ record' name = none ∧
        ∀ other, other ≠ name → record other = record' other := by
  obtain ⟨hnames, hcount, rfl⟩ := record?_object_eq_some_iff.mp hrecord
  have hsublist : (before ++ after).Sublist (before ++ (some name, value) :: after) :=
    (List.sublist_cons_self _ after).append_left before
  refine ⟨?_, _, record?_object_eq_some_iff.mpr ⟨?_, ?_, rfl⟩, ?_, ?_⟩
  · exact (lookup_eq_some_iff_mem (hcount name hname) value).mpr List.mem_append_cons_self
  · exact fun member hmember => hnames member (hsublist.subset hmember)
  · exact fun other hother => hsublist.countP_le.trans (hcount other hother)
  · exact lookup_eq_none_of_countP (hcount name hname)
  · exact fun other hother => lookup_insert_of_ne (by simpa using hother) value before after

theorem record?_member {name : String} {v : Value} (w : Value) (hname : name ∈ names)
    (hrecord : (Value.object (before ++ (some name, v) :: after)).record? names = some record) :
    record name = some v ∧ ∃ record',
      (Value.object (before ++ (some name, w) :: after)).record? names = some record' ∧
        record' name = some w ∧ ∀ other, other ≠ name → record other = record' other := by
  obtain ⟨hnames, hcount, rfl⟩ := record?_object_eq_some_iff.mp hrecord
  have hcount' : ∀ other ∈ names,
      (before ++ (some name, w) :: after).countP (·.1 = some other) ≤ 1 := fun other hother => by
    simpa only [List.countP_append, List.countP_cons] using hcount other hother
  refine ⟨?_, _, record?_object_eq_some_iff.mpr ⟨?_, hcount', rfl⟩, ?_, fun other hother => ?_⟩
  · exact (lookup_eq_some_iff_mem (hcount name hname) v).mpr List.mem_append_cons_self
  · simpa only [List.forall_mem_append, List.forall_mem_cons, Option.isSome_some] using hnames
  · exact (lookup_eq_some_iff_mem (hcount' name hname) w).mpr List.mem_append_cons_self
  · have hne : some other ≠ some name := by simpa using hother
    exact (lookup_insert_of_ne hne v before after).trans
      (lookup_insert_of_ne hne w before after).symm

/-- Where an item of an array stands among the fields of a record. -/
theorem exists_zip_eq {name : String} {before : List Value} (hnodup : names.Nodup)
    (hname : names[before.length]? = some name) (after : List Value) :
    ∃ earlier later, earlier.lookup name = none ∧ ∀ v,
      names.zip (before ++ v :: after) = earlier ++ (name, v) :: later := by
  obtain ⟨hlength, hget⟩ := List.getElem?_eq_some_iff.mp hname
  obtain ⟨front, back, hfront, hsplit⟩ :
      ∃ front back, front.length = before.length ∧ names = front ++ name :: back :=
    ⟨names.take before.length, names.drop (before.length + 1),
      List.length_take_of_le hlength.le, by
        rw [← hget, ← List.drop_eq_getElem_cons hlength, List.take_append_drop]⟩
  refine ⟨front.zip before, back.zip after, List.lookup_eq_none_iff.mpr ?_, fun v => ?_⟩
  · rintro ⟨other, u⟩ hentry
    rw [hsplit, List.nodup_middle, List.nodup_cons] at hnodup
    have hother : other ∈ front := (List.of_mem_zip hentry).1
    have hne : name ≠ other := fun heq => hnodup.1 (by simp [heq, hother])
    simpa using hne
  · rw [hsplit, List.zip_append hfront, List.zip_cons_cons]

theorem record?_item {name : String} {v : Value} (w : Value) {before after : List Value}
    (hnodup : names.Nodup) (hname : names[before.length]? = some name)
    (hrecord : (Value.array (before ++ v :: after)).record? names = some record) :
    record name = some v ∧ ∃ record',
      (Value.array (before ++ w :: after)).record? names = some record' ∧
        record' name = some w ∧ ∀ other, other ≠ name → record other = record' other := by
  obtain ⟨hlength, ⟨⟩⟩ := Option.ite_none_right_eq_some.mp hrecord
  have hlength' : (before ++ w :: after).length ≤ names.length := by
    simpa only [List.length_append, List.length_cons] using hlength
  obtain ⟨earlier, later, hnone, hzip⟩ := exists_zip_eq hnodup hname after
  have hfound (u : Value) : (names.zip (before ++ u :: after)).lookup name = some u := by
    rw [hzip, List.lookup_append, hnone, List.lookup_cons_self, Option.none_or]
  refine ⟨hfound v, _, if_pos hlength', hfound w, fun other hother => ?_⟩
  rw [hzip, hzip]
  exact (lookup_insert_of_ne hother v earlier later).trans
    (lookup_insert_of_ne hother w earlier later).symm

end Records

end ChipEight.Json
