import ChipEight.Catalogue
import ChipEight.Proofs.Configuration.LookupCalls

/-!
The configuration that a catalogue gives to an image. An image that is not described leaves it
to the extension of its file. The description of an image names platforms; the first name that
some platform of the catalogue carries decides on the dialect, while the tickrate is the first
positive one of the image, of this platform and of the extension.
-/

namespace ChipEight

theorem Resolution.preset_eq (extension : Option String) :
    preset extension =
      ((extension.bind Platform.ofExtension?).getD Platform.superChip).configuration := by
  rw [preset]
  cases extension.bind Platform.ofExtension? with
  | none => rfl
  | some platform => rfl

theorem Platform.tickrate_pos (platform : Platform) : 0 < platform.configuration.tickrate := by
  cases platform <;> decide

theorem Resolution.positiveRate?_positive? (rate : UInt32) :
    positiveRate? (positive? rate) = positive? rate := by
  unfold positive?
  split
  · simp [positiveRate?, Option.filter_some, *]
  · rfl

theorem find?_positive (rate : UInt32) (rest : List UInt32) :
    (rate :: rest).find? (0 < ·) = (positive? rate).or (rest.find? (0 < ·)) := by
  by_cases hrate : 0 < rate
  · simp [positive?, hrate]
  · simp [positive?, hrate]

/-- No tickrate other than a positive one counts, and the one further to the left wins. -/
theorem Resolution.tickrate_settle (preset : Configuration) (found : Option PlatformInfo)
    (rate : UInt32) (hpreset : 0 < preset.tickrate) :
    some (settle preset (found.map PlatformInfo.hints) (positive? rate)).tickrate =
      (rate :: (found.map (·.tickrate)).toList ++ [preset.tickrate]).find? (0 < ·) := by
  have hlast : [preset.tickrate].find? (0 < ·) = some preset.tickrate :=
    List.find?_cons_of_pos (decide_eq_true hpreset)
  rw [List.cons_append, find?_positive]
  cases found with
  | none =>
    simp only [settle, positiveRate?_positive?, Option.map_none, Option.toList_none,
      List.nil_append, hlast]
    cases positive? rate <;> rfl
  | some platform =>
    simp only [settle, positiveRate?_positive?, Option.map_some, Option.toList_some,
      List.singleton_append, find?_positive platform.tickrate, hlast, Option.bind_some,
      PlatformInfo.hints]
    cases positive? rate <;> cases positive? platform.tickrate <;> rfl

namespace Catalogue

variable (catalogue : Catalogue)

/-- Which platform the names lead to: the names are gone through in order, without the one of
a platform that this machine cannot be, and the platforms in the order of the document. -/
inductive Picks (names : List String) : Option PlatformInfo → Prop where
  | first (before after : List String) (earlier later : List PlatformInfo)
      (platform : PlatformInfo) (hnames : names = before ++ platform.id :: after)
      (hsupported : platform.id ≠ "megachip8")
      (hbefore : ∀ name ∈ before, name ≠ "megachip8" →
        ∀ other ∈ catalogue.platforms, other.id ≠ name)
      (hplatforms : catalogue.platforms = earlier ++ platform :: later)
      (hearlier : ∀ other ∈ earlier, other.id ≠ platform.id) : Picks names (some platform)
  | nothing (hnames : ∀ name ∈ names, name ≠ "megachip8" →
      ∀ other ∈ catalogue.platforms, other.id ≠ name) : Picks names none

variable {catalogue}

theorem platform?_eq_none_iff (name : String) :
    catalogue.platform? name = none ↔ ∀ other ∈ catalogue.platforms, other.id ≠ name := by
  simp [platform?]

theorem picks_cons_of_unusable {name : String} {names : List String}
    {found : Option PlatformInfo} (h : catalogue.Picks names found)
    (hname : name ≠ "megachip8" → ∀ other ∈ catalogue.platforms, other.id ≠ name) :
    catalogue.Picks (name :: names) found := by
  cases h with
  | nothing hnames => exact .nothing (List.forall_mem_cons.mpr ⟨hname, hnames⟩)
  | first before after earlier later platform hnames hsupported hbefore hplatforms hearlier =>
    exact .first (name :: before) after earlier later platform (by rw [hnames]; rfl) hsupported
      (List.forall_mem_cons.mpr ⟨hname, hbefore⟩) hplatforms hearlier

theorem picks_findSome? (names : List String) :
    catalogue.Picks names ((names.filter (· ≠ "megachip8")).findSome? catalogue.platform?) := by
  induction names with
  | nil => exact .nothing (by simp)
  | cons name rest ih =>
    by_cases hname : name = "megachip8"
    · rw [List.filter_cons_of_neg (by simpa using hname)]
      exact picks_cons_of_unusable ih fun h => absurd hname h
    · rw [List.filter_cons_of_pos (by simpa using hname)]
      cases hfound : catalogue.platform? name with
      | none =>
        rw [List.findSome?_cons_of_isNone (by simp [hfound])]
        exact picks_cons_of_unusable ih fun _ => (platform?_eq_none_iff name).mp hfound
      | some platform =>
        obtain ⟨hid, earlier, later, hplatforms, hearlier⟩ :=
          List.find?_eq_some_iff_append.mp hfound
        obtain rfl : platform.id = name := of_decide_eq_true hid
        rw [List.findSome?_cons_of_isSome (by simp [hfound]), hfound]
        exact .first [] rest earlier later platform rfl hname (by simp) hplatforms
          fun other hother => by simpa using hearlier other hother

theorem configuration_of_undescribed {digest : String} (extension : Option String)
    (h : catalogue.image? digest = none) :
    (catalogue.resolveDigest digest extension).configuration = Resolution.preset extension := by
  rw [resolveDigest, h]
  rfl

theorem configuration_of_described {digest : String} {entry : ImageInfo}
    (extension : Option String) (h : catalogue.image? digest = some entry) :
    (catalogue.resolveDigest digest extension).configuration =
      Resolution.settle (Resolution.preset extension)
        (((entry.platforms.filter (· ≠ "megachip8")).findSome? catalogue.platform?).map
          PlatformInfo.hints) (positive? entry.tickrate) := by
  rw [resolveDigest, h, Option.map_some, Resolution.configuration_resolve,
    Resolution.supported_eq, List.map_findSome?]
  rfl

/-- The configuration of an image is that of its extension, unless the digest of the image
leads to a program which describes an image of this very digest. A described image takes its
dialect from the platform that its list of names picks, its tickrate from the first of three
that is positive, and its voice from the extension all the same. -/
theorem image_configuration (catalogue : Catalogue) (image : List UInt8)
    (extension : Option String) :
    let digest := Digest.sha1 image
    let preset := ((extension.bind Platform.ofExtension?).getD Platform.superChip).configuration
    let configuration := (catalogue.resolveImage image extension).configuration
    (catalogue.index.lookup digest = none → configuration = preset) ∧
      ∀ position, catalogue.index.lookup digest = some position →
        (catalogue.programs.length ≤ position → configuration = preset) ∧
        ∀ program, catalogue.programs[position]? = some program →
          (program.images.lookup digest = none → configuration = preset) ∧
          ∀ entry, program.images.lookup digest = some entry →
            ∃ platform : Option PlatformInfo, catalogue.Picks entry.platforms platform ∧
              configuration.dialect = (platform.map (·.dialect)).getD preset.dialect ∧
              some configuration.tickrate =
                (entry.tickrate :: (platform.map (·.tickrate)).toList ++
                  [preset.tickrate]).find? (0 < ·) ∧
              configuration.voice = preset.voice := by
  intro digest preset configuration
  have hpreset : preset = Resolution.preset extension := (Resolution.preset_eq extension).symm
  have hundescribed (h : catalogue.image? digest = none) : configuration = preset :=
    (configuration_of_undescribed extension h).trans hpreset.symm
  refine ⟨fun hindex => hundescribed ?_, fun position hindex => ⟨fun hlength => hundescribed ?_,
    fun program hprogram => ⟨fun himage => hundescribed ?_, fun entry himage => ?_⟩⟩⟩
  · simp [image?, program?, hindex]
  · simp [image?, program?, hindex, hlength]
  · simp [image?, program?, hindex, hprogram, himage]
  · have hentry : catalogue.image? digest = some entry := by
      simp [image?, program?, hindex, hprogram, himage]
    have hsettled : configuration = _ := configuration_of_described extension hentry
    rw [← hpreset] at hsettled
    rw [hsettled]
    refine ⟨_, picks_findSome? entry.platforms, ?_, ?_, rfl⟩
    · rw [Resolution.settle, Option.map_map]
      rfl
    · exact Resolution.tickrate_settle _ _ _ (Platform.tickrate_pos _)

/-- An image that jumps to itself, for platforms of which the first cannot be had, the second
is unknown, and the third comes twice and without a tickrate. -/
def spinning : List UInt8 :=
  [0x12, 0x00]

def spinningEntry : ImageInfo :=
  { platforms := ["megachip8", "hires", "xochip", "superchip"] }

def spinningCatalogue (position : Nat) : Catalogue where
  programs := [{ images := [(Digest.sha1 spinning, spinningEntry)] }]
  platforms := [{ id := "superchip", tickrate := 30 },
    { id := "xochip", dialect := .xoChip }, { id := "xochip", tickrate := 500 }]
  index := [(Digest.sha1 spinning, position)]

theorem image_configuration_spinning :
    ((spinningCatalogue 0).index.lookup (Digest.sha1 spinning) = some 0 ∧
      (spinningCatalogue 0).programs[0]? =
        some { images := [(Digest.sha1 spinning, spinningEntry)] } ∧
      [(Digest.sha1 spinning, spinningEntry)].lookup (Digest.sha1 spinning) =
        some spinningEntry ∧
      ∃ platform : Option PlatformInfo,
        (spinningCatalogue 0).Picks spinningEntry.platforms platform ∧
          ((spinningCatalogue 0).resolveImage spinning (some "ch8")).configuration.dialect =
            (platform.map (·.dialect)).getD .cosmac ∧
          some ((spinningCatalogue 0).resolveImage spinning (some "ch8")).configuration.tickrate =
            (0 :: (platform.map PlatformInfo.tickrate).toList ++ [15]).find? (0 < ·) ∧
          ((spinningCatalogue 0).resolveImage spinning (some "ch8")).configuration.voice =
            .beep) ∧
      (spinningCatalogue 1).index.lookup (Digest.sha1 spinning) = some 1 ∧
      (spinningCatalogue 1).programs.length ≤ 1 ∧
      ((spinningCatalogue 1).resolveImage spinning none).configuration =
        Platform.superChip.configuration := by
  have hlookup : ∀ position, (spinningCatalogue position).index.lookup (Digest.sha1 spinning) =
      some position := fun position => List.lookup_cons_self
  have himage : [(Digest.sha1 spinning, spinningEntry)].lookup (Digest.sha1 spinning) =
      some spinningEntry := List.lookup_cons_self
  refine ⟨⟨hlookup 0, rfl, himage, ?_⟩, hlookup 1, Nat.le_refl 1, ?_⟩
  · exact ((image_configuration (spinningCatalogue 0) spinning (some "ch8")).2 0
      (hlookup 0)).2 _ rfl |>.2 spinningEntry himage
  · exact ((image_configuration (spinningCatalogue 1) spinning none).2 1
      (hlookup 1)).1 (Nat.le_refl 1)

end Catalogue

end ChipEight
