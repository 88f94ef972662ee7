import ChipEight.Catalogue.Document
import ChipEight.Proofs.Json.Members
import Mathlib

/-!
The legend of an image. Actions are mapped to keys, and a map may hand out its entries in any
order. The legend is the same for each of these orders: it is missing for the empty map only,
and otherwise has every entry once, on a line of its own, ordered by the names of the actions.
-/

namespace ChipEight

namespace ImageInfo

/-- The entries of the map, each of them once, in whatever order. -/
structure Enumerates (keys : String → Option UInt8) (entries : List (String × UInt8)) :
    Prop where
  nodup : (entries.map Prod.fst).Nodup
  mem_iff : ∀ name key, (name, key) ∈ entries ↔ keys name = some key

/-- Whether one name comes before another by the code points of their characters. -/
def Precedes (name other : String) : Prop :=
  List.Lex (fun c d : Char => c.toNat < d.toNat) name.toList other.toList

/-- The digits in base sixteen, in upper case and without leading zeros. -/
def upperHex (key : UInt8) : String :=
  String.ofList ((Nat.toDigits 16 key.toNat).map Char.toUpper)

def legendLine (entry : String × UInt8) : String :=
  entry.1 ++ ": " ++ upperHex entry.2

variable {keys : String → Option UInt8} {entries others : List (String × UInt8)}

namespace Enumerates

theorem perm (h : Enumerates keys entries) (hothers : Enumerates keys others) :
    entries.Perm others := by
  rw [List.perm_ext_iff_of_nodup h.nodup.of_map hothers.nodup.of_map]
  rintro ⟨name, key⟩
  rw [h.mem_iff, hothers.mem_iff]

theorem of_perm (h : Enumerates keys entries) (hperm : others.Perm entries) :
    Enumerates keys others where
  nodup := (hperm.map Prod.fst).nodup_iff.mpr h.nodup
  mem_iff name key := hperm.mem_iff.trans (h.mem_iff name key)

theorem eq_nil_iff (h : Enumerates keys entries) : entries = [] ↔ ∀ name, keys name = none := by
  rw [List.eq_nil_iff_forall_not_mem]
  constructor
  · intro hnone name
    rw [Option.eq_none_iff_forall_ne_some]
    exact fun key hkey => hnone (name, key) ((h.mem_iff name key).mpr hkey)
  · rintro hnone ⟨name, key⟩ hmem
    rw [h.mem_iff, hnone name] at hmem
    cases hmem

end Enumerates

/-- A list of entries with distinct names is a map. -/
theorem enumerates_lookup (h : (entries.map Prod.fst).Nodup) :
    Enumerates (fun name => entries.lookup name) entries where
  nodup := h
  mem_iff name key := by
    refine (Json.lookup_eq_some_iff_mem ?_ key).symm
    have hcount := List.nodup_iff_count_le_one.mp h name
    rw [List.count, List.countP_map] at hcount
    exact hcount

theorem enumerates_of_ofValue? {value : Json.Value} {image : ImageInfo}
    (h : ofValue? value = some image) :
    Enumerates (fun name => image.keys.lookup name) image.keys := by
  apply enumerates_lookup
  simp only [ofValue?, Option.bind_eq_bind, Option.bind_eq_some_iff] at h
  obtain ⟨record, -, -, -, -, -, -, -, -, -, -, -, -, -, keys, hkeys, ⟨⟩⟩ := h
  rw [Json.Record.field] at hkeys
  split at hkeys
  · exact Json.nodup_map? hkeys
  · cases hkeys
    exact List.nodup_nil

theorem keyOrder_iff (a b : String × UInt8) :
    keyOrder a b = true ↔ Precedes a.1 b.1 ∨ a.1 = b.1 ∧ a.2 ≤ b.2 := by
  have hname : Precedes a.1 b.1 ↔ a.1 < b.1 := Iff.rfl
  simp [keyOrder, hname]

theorem Precedes.trans {name other third : String} (h : Precedes name other)
    (hthird : Precedes other third) : Precedes name third :=
  String.lt_trans h hthird

theorem Precedes.asymm {name other : String} (h : Precedes name other) : ¬ Precedes other name :=
  String.lt_asymm h

theorem precedes_or_eq_or_precedes (name other : String) :
    Precedes name other ∨ name = other ∨ Precedes other name := by
  by_cases hle : name ≤ other
  · by_cases hge : other ≤ name
    · exact .inr (.inl (String.le_antisymm hle hge))
    · exact .inl (String.not_le.mp hge)
  · exact .inr (.inr (String.not_le.mp hle))

theorem keyOrder_trans (a b c : String × UInt8) (hab : keyOrder a b = true)
    (hbc : keyOrder b c = true) : keyOrder a c = true := by
  rw [keyOrder_iff] at *
  rcases hab with hab | ⟨hab, hkeys⟩
  · rcases hbc with hbc | ⟨hbc, -⟩
    · exact .inl (hab.trans hbc)
    · exact .inl (hbc ▸ hab)
  · rcases hbc with hbc | ⟨hbc, hkeys'⟩
    · exact .inl (hab ▸ hbc)
    · exact .inr ⟨hab.trans hbc, UInt8.le_trans hkeys hkeys'⟩

theorem keyOrder_total (a b : String × UInt8) : (keyOrder a b || keyOrder b a) = true := by
  rw [Bool.or_eq_true, keyOrder_iff, keyOrder_iff]
  rcases precedes_or_eq_or_precedes a.1 b.1 with hless | hsame | hgreater
  · exact .inl (.inl hless)
  · exact (UInt8.le_total a.2 b.2).imp (.inr ⟨hsame, ·⟩) (.inr ⟨hsame.symm, ·⟩)
  · exact .inr (.inl hgreater)

/-- With distinct names the keys play no role in the order. -/
theorem pairwise_precedes_mergeSort (h : Enumerates keys entries) :
    (entries.mergeSort keyOrder).Pairwise fun a b => Precedes a.1 b.1 := by
  have hsorted := List.pairwise_mergeSort keyOrder_trans keyOrder_total entries
  have hdistinct : (entries.mergeSort keyOrder).Pairwise fun a b => a.1 ≠ b.1 :=
    List.pairwise_map.mp (h.of_perm (List.mergeSort_perm entries keyOrder)).nodup
  refine (hsorted.and hdistinct).imp ?_
  rintro a b ⟨horder, hne⟩
  exact ((keyOrder_iff a b).mp horder).resolve_right fun hsame => hne hsame.1

theorem mergeSort_keyOrder_eq (h : Enumerates keys entries) (hothers : Enumerates keys others) :
    entries.mergeSort keyOrder = others.mergeSort keyOrder := by
  have hperm : (entries.mergeSort keyOrder).Perm (others.mergeSort keyOrder) :=
    (List.mergeSort_perm entries keyOrder).trans
      ((h.perm hothers).trans (List.mergeSort_perm others keyOrder).symm)
  exact hperm.eq_of_pairwise (fun _ _ _ _ hab hba => absurd hba hab.asymm)
    (pairwise_precedes_mergeSort h) (pairwise_precedes_mergeSort hothers)

theorem toUpper_digitChar : ∀ d : Nibble, (Nat.digitChar d.val).toUpper = Hex.digit d := by
  decide

theorem shortByte_eq (key : UInt8) : Hex.shortByte key = upperHex key := by
  have hlast (n : Nat) : (Nat.digitChar (n % 16)).toUpper = Hex.digit (Fin.ofNat 16 n) :=
    toUpper_digitChar (Fin.ofNat 16 n)
  have honly (n : Nat) (h : n < 16) : (Nat.digitChar n).toUpper = Hex.digit (Fin.ofNat 16 n) := by
    rw [← hlast, Nat.mod_eq_of_lt h]
  rw [Hex.shortByte, upperHex]
  by_cases hshort : key < 16
  · have hbelow : key.toNat < 16 := hshort
    rw [if_pos hshort, Nat.toDigits_of_lt_base hbelow, List.map_singleton, honly _ hbelow]
    rfl
  · have htwo : 16 ≤ key.toNat := Nat.le_of_not_lt hshort
    have hfirst : key.toNat / 16 < 16 := Nat.div_lt_of_lt_mul key.toNat_lt
    rw [if_neg hshort, Nat.toDigits_of_base_le (by decide) htwo, Nat.toDigits_of_lt_base hfirst,
      List.map_append, List.map_singleton, List.map_singleton, honly _ hfirst, hlast]
    rfl

/-- The heading, and a line for every entry. -/
def legendLines (listed : List (String × UInt8)) : List String :=
  "Keys:" :: listed.map legendLine

theorem join_map_append (lines : List String) (h : lines ≠ []) :
    "\n".intercalate lines ++ "\n" = String.join (lines.map (· ++ "\n")) := by
  induction lines with
  | nil => exact absurd rfl h
  | cons line rest ih =>
    cases rest with
    | nil => simp
    | cons next rest =>
      rw [String.intercalate_cons_cons, List.map_cons, String.join_cons,
        ← ih (List.cons_ne_nil _ _), String.append_assoc, String.append_assoc]

theorem legend?_eq (image : ImageInfo) :
    image.legend? =
      if image.keys = [] then none
      else
        some (String.join ((legendLines (image.keys.mergeSort keyOrder)).map (· ++ "\n"))) := by
  cases hkeys : image.keys with
  | nil => simp [legend?, hkeys]
  | cons entry rest =>
    have hline : (fun entry : String × UInt8 => entry.1 ++ ": " ++ Hex.shortByte entry.2) =
        legendLine := by
      funext entry
      rw [shortByte_eq]
      rfl
    have hlines : ((entry :: rest).mergeSort keyOrder).map legendLine ≠ [] := by
      intro hnil
      have hlength := congrArg List.length hnil
      simp at hlength
    simp only [legend?, hkeys, hline, legendLines, List.map_cons, String.join_cons]
    rw [← join_map_append _ hlines]
    simp [String.append_assoc]

theorem splitOn_join {lines : List String} (h : ∀ line ∈ lines, '\n' ∉ line.toList) :
    (String.join (lines.map (· ++ "\n"))).toList.splitOn '\n' =
      lines.map String.toList ++ [[]] := by
  induction lines with
  | nil => rfl
  | cons line rest ih =>
    obtain ⟨hline, hrest⟩ := List.forall_mem_cons.mp h
    have hsplit : (String.join ((line :: rest).map (· ++ "\n"))).toList =
        line.toList ++ '\n' :: (String.join (rest.map (· ++ "\n"))).toList := by
      simp
    rw [hsplit, List.splitOn_append_cons_self_of_not_mem hline, ih hrest]
    rfl

theorem digits_ne_newline (width n : Nat) : ∀ c ∈ Hex.digits width n, c ≠ '\n' := by
  have hdigit : ∀ d : Nibble, Hex.digit d ≠ '\n' := by decide
  induction width generalizing n with
  | zero => simp [Hex.digits]
  | succ width ih =>
    intro c hc
    rcases List.mem_append.mp hc with hfront | hlast
    · exact ih (n / 16) c hfront
    · rw [List.mem_singleton.mp hlast]
      exact hdigit _

theorem newline_notMem_legendLine {entry : String × UInt8} (h : '\n' ∉ entry.1.toList) :
    '\n' ∉ (legendLine entry).toList := by
  have hkey : '\n' ∉ (upperHex entry.2).toList := by
    rw [← shortByte_eq, Hex.shortByte]
    split
    · exact fun hmem => digits_ne_newline 1 _ _ (by simpa [Hex.fixed] using hmem) rfl
    · exact fun hmem => digits_ne_newline 2 _ _ (by simpa [Hex.fixed] using hmem) rfl
  simp [legendLine, h, hkey]

/-- The legend shows the map, and not the order in which the map hands out its entries. It is
missing for the empty map only, and otherwise a line for every entry follows the heading, each
entry once and in the order of the names. -/
theorem legend_lists_keys (image : ImageInfo) (h : Enumerates keys image.keys) :
    (image.legend? = none ↔ ∀ name, keys name = none) ∧
    (∀ text, image.legend? = some text → ∃ listed, Enumerates keys listed ∧
      (listed.Pairwise fun entry later => Precedes entry.1 later.1) ∧
      text = String.join ((legendLines listed).map (· ++ "\n")) ∧
      ((∀ entry ∈ listed, '\n' ∉ entry.1.toList) →
        text.toList.splitOn '\n' = (legendLines listed).map String.toList ++ [[]])) ∧
    ∀ other : ImageInfo, Enumerates keys other.keys → other.legend? = image.legend? := by
  refine ⟨?_, ?_, ?_⟩
  · rw [legend?_eq, ← h.eq_nil_iff]
    split <;> simp [*]
  · intro text htext
    rw [legend?_eq] at htext
    obtain ⟨-, ⟨⟩⟩ := Option.ite_none_left_eq_some.mp htext
    refine ⟨image.keys.mergeSort keyOrder, h.of_perm (List.mergeSort_perm _ _),
      pairwise_precedes_mergeSort h, rfl, fun hnames => splitOn_join ?_⟩
    refine List.forall_mem_cons.mpr ⟨by decide, List.forall_mem_map.mpr fun entry hentry => ?_⟩
    exact newline_notMem_legendLine (hnames entry hentry)
  · intro other hother
    have hempty : other.keys = [] ↔ image.keys = [] := hother.eq_nil_iff.trans h.eq_nil_iff.symm
    rw [legend?_eq, legend?_eq, mergeSort_keyOrder_eq hother h]
    simp only [hempty]

/-- An image with three actions, as a document describes it. -/
def described : Json.Value :=
  let key (digits : List Char) : Json.Value :=
    .number { negative := false, digits, plain := true }
  .object [(some "keys",
    .object [(some "up", key ['5']), (some "fire", key ['1', '0']),
      (some "Menu", key ['2', '5', '5'])])]

/-- The same three actions in another order, upper case before lower case. -/
def listing : List (String × UInt8) :=
  [("Menu", 255), ("fire", 10), ("up", 5)]

theorem legend_lists_keys_described :
    ofValue? described = some { keys := listing } ∧
      Enumerates (fun name => listing.lookup name) listing ∧
      ({ keys := listing.reverse } : ImageInfo).legend? =
        some "Keys:\nMenu: FF\nfire: A\nup: 5\n" := by
  have hread : ofValue? described = some { keys := listing } := by cbv
  have hlisting : Enumerates (fun name => listing.lookup name) listing :=
    enumerates_of_ofValue? hread
  have hreversed : Enumerates (fun name => listing.lookup name) listing.reverse :=
    hlisting.of_perm listing.reverse_perm
  refine ⟨hread, hlisting, ?_⟩
  obtain ⟨-, -, hanyOrder⟩ := legend_lists_keys { keys := listing } hlisting
  rw [hanyOrder { keys := listing.reverse } hreversed]
  cbv

end ImageInfo

end ChipEight
