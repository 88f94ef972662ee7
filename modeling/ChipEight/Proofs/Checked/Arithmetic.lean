/-!
Arithmetic and indexing as a processor with fixed widths has them: a result that does not fit,
a division by zero and an index out of range are traps, not numbers. Numbers are plain, and
the width of an operation is said beside it.
-/

namespace ChipEight

/-- Why an operation has no result. -/
inductive Trap where
  | outOfRange (index length : Nat)
  | overflow
  | divisionByZero
  deriving DecidableEq, Repr

abbrev Checked := Except Trap

namespace Checked

inductive Width where
  | byte
  | word
  /-- The width of lengths and indices, which is at least this on every host. -/
  | size
  deriving DecidableEq, Repr

def Width.bits : Width → Nat
  | .byte => 8
  | .word => 16
  | .size => 32

/-- How many numbers there are. -/
def Width.bound : Width → Nat
  | .byte => 256
  | .word => 65536
  | .size => 4294967296

/-- A result that must fit its width. -/
def fit (width : Width) (value : Nat) : Checked Nat :=
  if value < width.bound then .ok value else .error .overflow

def add (width : Width) (a b : Nat) : Checked Nat :=
  fit width (a + b)

def mul (width : Width) (a b : Nat) : Checked Nat :=
  fit width (a * b)

def sub (a b : Nat) : Checked Nat :=
  if b ≤ a then .ok (a - b) else .error .overflow

def div (a b : Nat) : Checked Nat :=
  if b = 0 then .error .divisionByZero else .ok (a / b)

def rem (a b : Nat) : Checked Nat :=
  if b = 0 then .error .divisionByZero else .ok (a % b)

/-- The distance of a shift must be below the number of bits. -/
def shiftRight (width : Width) (a distance : Nat) : Checked Nat :=
  if distance < width.bits then .ok (a >>> distance) else .error .overflow

section Vectors

variable {α : Type} {length : Nat}

def get (values : Vector α length) (index : Nat) : Checked α :=
  if h : index < length then .ok values[index] else .error (.outOfRange index length)

def set (values : Vector α length) (index : Nat) (value : α) : Checked (Vector α length) :=
  if h : index < length then .ok (values.set index value) else .error (.outOfRange index length)

/-- The values from `start` up to `stop`, both of which must be in order and in range. -/
def slice (values : Vector α length) (start stop : Nat) : Checked (List α) :=
  if start ≤ stop then
    if stop ≤ length then .ok ((values.toList.drop start).take (stop - start))
    else .error (.outOfRange stop length)
  else .error (.outOfRange start stop)

end Vectors

section Laws

variable {α β : Type}

@[simp]
theorem ok_bind (a : α) (f : α → Checked β) : (Except.ok a >>= f) = f a := rfl

@[simp]
theorem pure_eq_ok (a : α) : (pure a : Checked α) = .ok a := rfl

theorem fit_eq {width : Width} {value : Nat} (h : value < width.bound) :
    fit width value = .ok value := if_pos h

theorem add_eq {width : Width} {a b : Nat} (h : a + b < width.bound) :
    add width a b = .ok (a + b) := fit_eq h

example : add .byte 200 56 = .error .overflow := rfl

theorem mul_eq {width : Width} {a b : Nat} (h : a * b < width.bound) :
    mul width a b = .ok (a * b) := fit_eq h

/-- Lengths and indices of the machine fit a word, and so their own width. -/
theorem add_size {a b : Nat} (h : a + b < 65536) : add .size a b = .ok (a + b) :=
  add_eq (Nat.lt_trans h (by decide))

theorem mul_size {a b : Nat} (h : a * b < 65536) : mul .size a b = .ok (a * b) :=
  mul_eq (Nat.lt_trans h (by decide))

theorem sub_eq {a b : Nat} (h : b ≤ a) : sub a b = .ok (a - b) := if_pos h

theorem div_eq {a b : Nat} (h : 0 < b) : div a b = .ok (a / b) := if_neg (by omega)

theorem rem_eq {a b : Nat} (h : 0 < b) : rem a b = .ok (a % b) := if_neg (by omega)

theorem shiftRight_eq {width : Width} {a distance : Nat} (h : distance < width.bits) :
    shiftRight width a distance = .ok (a >>> distance) := if_pos h

theorem get_eq {length : Nat} (values : Vector α length) (index : Fin length) :
    get values index.val = .ok (values.get index) := dif_pos index.isLt

theorem set_eq {length : Nat} (values : Vector α length) (index : Fin length) (value : α) :
    set values index.val value = .ok (values.set index.val value) := dif_pos index.isLt

theorem slice_eq {length : Nat} (values : Vector α length) {start stop : Nat}
    (hstart : start ≤ stop) (hstop : stop ≤ length) :
    slice values start stop = .ok ((values.toList.drop start).take (stop - start)) := by
  rw [slice, if_pos hstart, if_pos hstop]

section Loops

variable {State : Type} {body : State → α → Checked State} {items : List α}

/-- A loop succeeds if there is an invariant, which may count the passes, under which each of
its passes does. -/
theorem foldlM_spec (invariant : Nat → State → Prop)
    (hbody : ∀ i state item, items[i]? = some item → invariant i state →
      ∃ after, body state item = .ok after ∧ invariant (i + 1) after)
    {state : State} (hstart : invariant 0 state) :
    ∃ after, items.foldlM body state = .ok after ∧ invariant items.length after := by
  induction items generalizing invariant state with
  | nil => exact ⟨state, rfl, hstart⟩
  | cons item items ih =>
    obtain ⟨middle, hfirst, hmiddle⟩ := hbody 0 state item rfl hstart
    obtain ⟨after, hrest, hafter⟩ := ih (fun i => invariant (i + 1))
      (fun i other => hbody (i + 1) other) hmiddle
    refine ⟨after, ?_, hafter⟩
    rw [List.foldlM_cons, hfirst, ok_bind, hrest]

/-- A loop whose passes are those of a loop without traps, under an invariant. -/
theorem foldlM_eq {next : State → α → State} (invariant : Nat → State → Prop)
    (hbody : ∀ i state item, items[i]? = some item → invariant i state →
      body state item = .ok (next state item) ∧ invariant (i + 1) (next state item))
    {state : State} (hstart : invariant 0 state) :
    items.foldlM body state = .ok (items.foldl next state) ∧
      invariant items.length (items.foldl next state) := by
  have hspec : ∃ after, items.foldlM body state = .ok after ∧
      after = (items.take items.length).foldl next state ∧ invariant items.length after := by
    refine foldlM_spec
      (fun i reached => reached = (items.take i).foldl next state ∧ invariant i reached)
      (fun i reached item hitem hreached => ?_) ⟨rfl, hstart⟩
    obtain ⟨rfl, hinvariant⟩ := hreached
    obtain ⟨hpass, hafter⟩ := hbody i _ item hitem hinvariant
    refine ⟨_, hpass, ?_, hafter⟩
    rw [List.take_add_one, hitem, List.foldl_append]
    rfl
  obtain ⟨after, hloop, rfl, hafter⟩ := hspec
  rw [List.take_length] at hloop hafter
  exact ⟨hloop, hafter⟩

/-- A loop whose passes all succeed. -/
theorem foldlM_eq_foldl {next : State → α → State}
    (hbody : ∀ state, ∀ item ∈ items, body state item = .ok (next state item)) (state : State) :
    items.foldlM body state = .ok (items.foldl next state) :=
  (foldlM_eq (fun _ _ => True)
    (fun _ reached item hitem _ => ⟨hbody reached item (List.mem_of_getElem? hitem), trivial⟩)
    trivial).1

theorem mapM_eq {f : α → Checked β} {g : α → β}
    (h : ∀ item ∈ items, f item = .ok (g item)) : items.mapM f = .ok (items.map g) := by
  induction items with
  | nil => rfl
  | cons item items ih =>
    rw [List.mapM_cons, h item List.mem_cons_self, ok_bind,
      ih fun other hother => h other (List.mem_cons_of_mem _ hother)]
    rfl

end Loops

end Laws

end Checked

end ChipEight
