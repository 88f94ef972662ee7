import ChipEight.Configuration.Resolution
import Mathlib.Data.List.Basic

/-!
What a resolution asks for, and what its outcome depends on. The names in the list of platforms
are looked up in turn, without those that this machine cannot be, until one is known; nothing
else in the list has any influence. The outcome is a matter of the platform found and of three
tickrates, of which the first positive one counts.
-/

namespace ChipEight.Resolution

/-- The names that are looked up unless an earlier one is known. -/
def supported (names : List String) : List String :=
  names.filter (· ∉ unsupported)

/-- The names up to the first that is known, this one included. -/
def upToKnown (lookup : String → Option PlatformHints) (names : List String) : List String :=
  names.takeWhile (fun name => (lookup name).isNone) ++
    (names.find? fun name => (lookup name).isSome).toList

/-- A search can end with this name. -/
def isUsable (lookup : String → Option PlatformHints) (name : String) : Bool :=
  name ∉ unsupported && (lookup name).isSome

def positiveRate? (rate : Option UInt32) : Option UInt32 :=
  rate.filter (0 < ·)

/-- The configuration when a search has come to its end. -/
def settle (preset : Configuration) (found : Option PlatformHints) (rate : Option UInt32) :
    Configuration where
  dialect := (found.map (·.dialect)).getD preset.dialect
  tickrate := ((positiveRate? rate).or (positiveRate? (found.bind (·.tickrate)))).getD
    preset.tickrate
  voice := preset.voice

section Search

variable (lookup : String → Option PlatformHints)

theorem found_search (names : List String) :
    (search lookup names).2 = (supported names).findSome? lookup := by
  induction names with
  | nil => rfl
  | cons name rest ih =>
    by_cases hname : name ∈ unsupported
    · simp [search, supported, hname, ih]
    · cases hknown : lookup name with
      | none => simp [search, supported, hname, hknown, ih]
      | some hints => simp [search, supported, hname, hknown]

theorem asked_search (names : List String) :
    (search lookup names).1.filterMap Visit.asked? = upToKnown lookup (supported names) := by
  induction names with
  | nil => rfl
  | cons name rest ih =>
    by_cases hname : name ∈ unsupported
    · simp only [search, hname, if_true]
      rw [List.filterMap_cons_none rfl, ih, supported, supported,
        List.filter_cons_of_neg (by simpa)]
    · cases hknown : lookup name with
      | none => simp [search, supported, upToKnown, hname, hknown, ih, Visit.asked?]
      | some hints => simp [search, supported, upToKnown, hname, hknown, Visit.asked?]

theorem override_eq (configuration : Configuration) (rate : Option UInt32) :
    override configuration rate =
      { configuration with tickrate := (positiveRate? rate).getD configuration.tickrate } := by
  cases rate with
  | none => rfl
  | some rate =>
    by_cases hrate : 0 < rate
    · simp [override, positiveRate?, Option.filter_some, hrate]
    · simp [override, positiveRate?, Option.filter_some, hrate]

theorem configuration_resolve (extension : Option String) (program : ProgramHints) :
    (resolve extension (some program) lookup).configuration =
      settle (preset extension) ((supported program.platforms).findSome? lookup)
        program.tickrate := by
  rw [← found_search]
  simp only [resolve]
  cases (search lookup program.platforms).2 with
  | none => simp [override_eq, settle, positiveRate?]
  | some platform =>
    cases positiveRate? program.tickrate <;> simp [override_eq, settle, *]

end Search

section Calls

variable {σ : Type}

/-- A lookup that has a state of its own: it may take note of its calls, and answer each of
them differently. -/
abbrev Lookup (σ : Type) :=
  String → σ → Option PlatformHints × σ

/-- The search with a lookup of this kind. -/
def searchWith (lookup : Lookup σ) : List String → σ → Option PlatformHints × σ
  | [], state => (none, state)
  | name :: rest, state =>
    if name ∈ unsupported then searchWith lookup rest state
    else
      match lookup name state with
      | (some hints, state) => (some hints, state)
      | (none, state) => searchWith lookup rest state

def resolveWith (extension : Option String) (program : Option ProgramHints)
    (lookup : Lookup σ) (state : σ) : Configuration × σ :=
  match program with
  | none => (preset extension, state)
  | some program =>
    let (found, state) := searchWith lookup program.platforms state
    (settle (preset extension) found program.tickrate, state)

/-- Calls of a lookup with the answers to them. -/
abbrev Calls :=
  List (String × Option PlatformHints)

/-- The lookup, with all calls written down beside its own state. -/
def recorded (lookup : Lookup σ) : Lookup (σ × Calls) :=
  fun name (state, calls) =>
    let (answer, state) := lookup name state
    (answer, (state, calls ++ [(name, answer)]))

/-- The calls that a resolution makes, with the lookup in some state at first. -/
def calls (extension : Option String) (program : Option ProgramHints) (lookup : Lookup σ)
    (state : σ) : Calls :=
  (resolveWith extension program (recorded lookup) (state, [])).2.2

/-- The names are asked for one by one, until an answer is not `none`. -/
inductive Transcript : List String → Calls → Prop where
  | exhausted : Transcript [] []
  | known (name : String) (hints : PlatformHints) (rest : List String) :
      Transcript (name :: rest) [(name, some hints)]
  | unknown (name : String) {rest : List String} {calls : Calls} :
      Transcript rest calls → Transcript (name :: rest) ((name, none) :: calls)

theorem transcript_searchWith (lookup : Lookup σ) (names : List String) (state : σ)
    (earlier : Calls) :
    ∃ calls, (searchWith (recorded lookup) names (state, earlier)).2.2 = earlier ++ calls ∧
      Transcript (supported names) calls := by
  induction names generalizing state earlier with
  | nil => exact ⟨[], by simp [searchWith], .exhausted⟩
  | cons name rest ih =>
    by_cases hname : name ∈ unsupported
    · simpa [searchWith, supported, hname] using ih state earlier
    · have hsupported : supported (name :: rest) = name :: supported rest := by
        simp [supported, hname]
      rw [hsupported]
      rcases hanswer : lookup name state with ⟨_ | hints, after⟩
      · obtain ⟨calls, hcalls, htranscript⟩ := ih after (earlier ++ [(name, none)])
        refine ⟨(name, none) :: calls, ?_, htranscript.unknown name⟩
        simpa [searchWith, hname, recorded, hanswer] using hcalls
      · refine ⟨[(name, some hints)], ?_, .known name hints _⟩
        simp [searchWith, hname, recorded, hanswer]

theorem transcript_calls (extension : Option String) (program : ProgramHints)
    (lookup : Lookup σ) (state : σ) :
    Transcript (supported program.platforms) (calls extension (some program) lookup state) := by
  obtain ⟨calls, hcalls, htranscript⟩ :=
    transcript_searchWith lookup program.platforms state []
  rw [Resolution.calls, resolveWith, hcalls]
  exact htranscript

theorem searchWith_fixed (lookup : String → Option PlatformHints) (names : List String)
    (state : σ) :
    searchWith (fun name state => (lookup name, state)) names state =
      ((search lookup names).2, state) := by
  induction names with
  | nil => rfl
  | cons name rest ih =>
    by_cases hname : name ∈ unsupported
    · simp [searchWith, search, hname, ih]
    · cases hknown : lookup name with
      | none => simp [searchWith, search, hname, hknown, ih]
      | some hints => simp [searchWith, search, hname, hknown]

/-- A lookup whose answers are fixed leads to the resolution as it stands. -/
theorem resolveWith_fixed (extension : Option String) (program : Option ProgramHints)
    (lookup : String → Option PlatformHints) (state : σ) :
    resolveWith extension program (fun name state => (lookup name, state)) state =
      ((resolve extension program lookup).configuration, state) := by
  cases program with
  | none => rfl
  | some program => rw [resolveWith, searchWith_fixed, configuration_resolve, found_search]

end Calls

section Influence

variable {lookup : String → Option PlatformHints}

theorem findSome?_supported (names : List String) :
    (supported names).findSome? lookup = (names.filter (isUsable lookup)).head?.bind lookup := by
  induction names with
  | nil => rfl
  | cons name rest ih =>
    by_cases hname : name ∈ unsupported
    · simpa [supported, isUsable, hname] using ih
    · cases hknown : lookup name with
      | none => simpa [supported, isUsable, hname, hknown] using ih
      | some hints => simp [supported, isUsable, hname, hknown]

/-- Only the usable names count, and of these only the first. -/
theorem configuration_congr {lookup : String → Option PlatformHints}
    (extension : Option String) (rate : Option UInt32) {names others : List String}
    (h : (names.filter (isUsable lookup)).head? = (others.filter (isUsable lookup)).head?) :
    (resolve extension (some ⟨names, rate⟩) lookup).configuration =
      (resolve extension (some ⟨others, rate⟩) lookup).configuration := by
  rw [configuration_resolve, configuration_resolve, findSome?_supported, findSome?_supported, h]

/-- A tickrate that is absent counts as zero. -/
theorem positiveRate?_congr {rate other : Option UInt32} (h : rate.getD 0 = other.getD 0) :
    positiveRate? rate = positiveRate? other := by
  cases rate <;> cases other <;> simp_all [positiveRate?, Option.filter_some]

/-- Hints as far as they matter, where a tickrate that is absent counts as zero. -/
def substance (hints : PlatformHints) : Dialect × UInt32 :=
  (hints.dialect, hints.tickrate.getD 0)

theorem settle_congr {found other : Option PlatformHints} {rate otherRate : Option UInt32}
    (preset : Configuration) (hfound : found.map substance = other.map substance)
    (hrate : rate.getD 0 = otherRate.getD 0) :
    settle preset found rate = settle preset other otherRate := by
  have hpositive := positiveRate?_congr hrate
  cases found with
  | none =>
    cases other with
    | none => simp [settle, hpositive]
    | some other => simp at hfound
  | some found =>
    cases other with
    | none => simp at hfound
    | some other =>
      simp only [Option.map_some, Option.some.injEq, substance, Prod.mk.injEq] at hfound
      simp [settle, hpositive, hfound.1, positiveRate?_congr hfound.2]

theorem configuration_of_substance {lookup other : String → Option PlatformHints}
    (extension : Option String) (names : List String) {rate otherRate : Option UInt32}
    (hlookup : ∀ name, (other name).map substance = (lookup name).map substance)
    (hrate : otherRate.getD 0 = rate.getD 0) :
    (resolve extension (some ⟨names, otherRate⟩) other).configuration =
      (resolve extension (some ⟨names, rate⟩) lookup).configuration := by
  rw [configuration_resolve, configuration_resolve]
  refine settle_congr _ ?_ hrate
  rw [List.map_findSome?, List.map_findSome?]
  exact congrArg (List.findSome? · _) (funext hlookup)

theorem supported_eq (names : List String) :
    supported names = names.filter (· ≠ "megachip8") := by
  simp [supported, unsupported]

end Influence

/-- Without hints on the program nothing is looked up, and with hints the names are asked for
in turn until one is known, whatever state the lookup has. With fixed answers, the outcome is
the same without any names that cannot be used, with any names after one that can, and with
tickrates of zero in place of absent ones. -/
theorem resolve_asks_no_further (extension : Option String) (names : List String)
    (rate : Option UInt32) :
    (∀ {σ : Type} (lookup : Lookup σ) (state : σ),
      calls extension none lookup state = [] ∧
        Transcript (names.filter (· ≠ "megachip8"))
          (calls extension (some ⟨names, rate⟩) lookup state)) ∧
      ∀ lookup : String → Option PlatformHints,
        (∀ {σ : Type} (program : Option ProgramHints) (state : σ),
          resolveWith extension program (fun name state => (lookup name, state)) state =
            ((resolve extension program lookup).configuration, state)) ∧
        (resolve extension none lookup).asked = [] ∧
        (resolve extension (some ⟨names, rate⟩) lookup).asked =
          upToKnown lookup (names.filter (· ≠ "megachip8")) ∧
        (∀ fewer : List String, fewer.Sublist names →
          fewer.filter (isUsable lookup) = names.filter (isUsable lookup) →
          (resolve extension (some ⟨fewer, rate⟩) lookup).configuration =
            (resolve extension (some ⟨names, rate⟩) lookup).configuration) ∧
        (∀ (before after more : List String) (name : String), names = before ++ name :: after →
          isUsable lookup name = true →
          (resolve extension (some ⟨before ++ name :: more, rate⟩) lookup).configuration =
            (resolve extension (some ⟨names, rate⟩) lookup).configuration) ∧
        ∀ (otherRate : Option UInt32) (other : String → Option PlatformHints),
          otherRate.getD 0 = rate.getD 0 →
          (∀ name, (other name).map substance = (lookup name).map substance) →
          (resolve extension (some ⟨names, otherRate⟩) other).configuration =
            (resolve extension (some ⟨names, rate⟩) lookup).configuration := by
  rw [← supported_eq]
  refine ⟨fun lookup state => ⟨rfl, transcript_calls extension ⟨names, rate⟩ lookup state⟩,
    fun lookup => ⟨fun program state => resolveWith_fixed extension program lookup state, rfl,
      asked_search lookup names, fun fewer _ husable => ?_,
      fun before after more name hnames husable => ?_,
      fun otherRate other hrate hlookup => ?_⟩⟩
  · exact configuration_congr extension rate (congrArg List.head? husable)
  · subst hnames
    refine configuration_congr extension rate ?_
    simp only [List.filter_append, List.filter_cons_of_pos husable, List.head?_append,
      List.head?_cons]
  · exact configuration_of_substance extension names hlookup hrate

/-- A store of two platforms, the first without a tickrate or with a tickrate of zero. -/
def twoPlatforms (rate : Option UInt32) (name : String) : Option PlatformHints :=
  if name = "xochip" then some ⟨.xoChip, rate⟩
  else if name = "superchip" then some ⟨.superChip, some 30⟩
  else none

theorem resolve_asks_no_further_twoPlatforms :
    (resolve (some "ch8") (some ⟨["megachip8", "hires", "xochip", "superchip"], some 0⟩)
        (twoPlatforms none)).asked = ["hires", "xochip"] ∧
      (["xochip"].Sublist ["xochip", "megachip8"] ∧
        (resolve (some "ch8") (some ⟨["xochip"], none⟩) (twoPlatforms none)).configuration =
          (resolve (some "ch8") (some ⟨["xochip", "megachip8"], none⟩)
            (twoPlatforms none)).configuration) ∧
      (isUsable (twoPlatforms none) "xochip" = true ∧
        (resolve (some "ch8") (some ⟨["hires"] ++ "xochip" :: ["superchip"], none⟩)
            (twoPlatforms none)).configuration =
          (resolve (some "ch8") (some ⟨["hires", "xochip"], none⟩)
            (twoPlatforms none)).configuration) ∧
      (resolve (some "ch8") (some ⟨["hires", "xochip"], some 0⟩)
          (twoPlatforms (some 0))).configuration =
        (resolve (some "ch8") (some ⟨["hires", "xochip"], none⟩)
          (twoPlatforms none)).configuration := by
  have hsubstance : ∀ name, (twoPlatforms (some 0) name).map substance =
      (twoPlatforms none name).map substance := by
    intro name
    unfold twoPlatforms
    split
    · rfl
    · rfl
  obtain ⟨-, -, hasked, -⟩ := (resolve_asks_no_further (some "ch8")
    ["megachip8", "hires", "xochip", "superchip"] (some 0)).2 (twoPlatforms none)
  obtain ⟨-, -, -, hfewer, -⟩ := (resolve_asks_no_further (some "ch8")
    ["xochip", "megachip8"] none).2 (twoPlatforms none)
  obtain ⟨-, -, -, -, hmore, hrates⟩ := (resolve_asks_no_further (some "ch8")
    ["hires", "xochip"] none).2 (twoPlatforms none)
  exact ⟨hasked.trans (by decide), ⟨by decide, hfewer _ (by decide) (by decide)⟩,
    ⟨by decide, hmore ["hires"] [] ["superchip"] "xochip" rfl (by decide)⟩,
    hrates (some 0) (twoPlatforms (some 0)) rfl hsubstance⟩

end ChipEight.Resolution
