import ChipEight.Catalogue.Document
import ChipEight.Proofs.Json.Grammar
import ChipEight.Proofs.Json.Schema
import Mathlib

/-!
The documents of a catalogue are read field by field. In the records of programs, images,
colours, platforms and dialects, however deep in a document they stand, neither the order of the
members matters, nor unknown members, nor whether a default is written out; and a document in
which one of them has a known member twice is malformed.
-/

namespace ChipEight

open Json (Value Schema Layout Field Denotes)

namespace Palette

def layout : Layout Palette where
  fields := [.plain "pixels" (Value.list? Value.text?) pixels,
    .plain "buzzer" Value.text? buzzer, .plain "silence" Value.text? silence]
  missing := { }

theorem readBy : layout.ReadBy ofValue? where
  nodup := by decide
  lawful := by simp [layout, Field.plain, Schema.plain_lawful]
  read_eq_some_iff := by
    intro value content
    simp only [ofValue?, Option.bind_eq_bind, Option.bind_eq_some_iff]
    constructor
    · rintro ⟨record, hrecord, pixels, hpixels, buzzer, hbuzzer, silence, hsilence, ⟨⟩⟩
      exact ⟨record, hrecord, List.forall_iff_forall_mem.mp ⟨hpixels, hbuzzer, hsilence⟩⟩
    · rintro ⟨record, hrecord, hfields⟩
      obtain ⟨hpixels, hbuzzer, hsilence⟩ := List.forall_iff_forall_mem.mpr hfields
      exact ⟨record, hrecord, _, hpixels, _, hbuzzer, _, hsilence, rfl⟩

def schema : Schema Palette :=
  layout.schema ofValue?

end Palette

namespace ImageInfo

def layout : Layout ImageInfo where
  fields := [.plain "file" Value.text? file,
    .plain "platforms" (Value.list? Value.text?) platforms,
    .plain "description" Value.text? description,
    .plain "embeddedTitle" Value.text? embeddedTitle,
    .plain "tickrate" Value.uint32? tickrate,
    { name := "colors", schema := Palette.schema.optional, get := palette },
    .plain "keys" (Value.map? Value.byte?) keys]
  missing := { }

theorem readBy : layout.ReadBy ofValue? where
  nodup := by decide
  lawful := by
    simp [layout, Field.plain, Schema.plain_lawful, Palette.schema,
      Schema.optional_lawful Palette.readBy.schema_lawful]
  read_eq_some_iff := by
    intro value content
    simp only [ofValue?, Option.bind_eq_bind, Option.bind_eq_some_iff]
    constructor
    · rintro ⟨record, hrecord, file, hfile, platforms, hplatforms, description, hdescription,
        title, htitle, tickrate, htickrate, palette, hpalette, keys, hkeys, ⟨⟩⟩
      exact ⟨record, hrecord, List.forall_iff_forall_mem.mp
        ⟨hfile, hplatforms, hdescription, htitle, htickrate, hpalette, hkeys⟩⟩
    · rintro ⟨record, hrecord, hfields⟩
      obtain ⟨hfile, hplatforms, hdescription, htitle, htickrate, hpalette, hkeys⟩ :=
        List.forall_iff_forall_mem.mpr hfields
      exact ⟨record, hrecord, _, hfile, _, hplatforms, _, hdescription, _, htitle, _, htickrate,
        _, hpalette, _, hkeys, rfl⟩

def schema : Schema ImageInfo :=
  layout.schema ofValue?

end ImageInfo

namespace ProgramInfo

def layout : Layout ProgramInfo where
  fields := [.plain "title" Value.text? title, .plain "release" Value.text? release,
    .plain "authors" (Value.list? Value.text?) authors,
    .plain "description" Value.text? description,
    { name := "roms", schema := ImageInfo.schema.map, get := images }]
  missing := { }

theorem readBy : layout.ReadBy ofValue? where
  nodup := by decide
  lawful := by
    simp [layout, Field.plain, Schema.plain_lawful, ImageInfo.schema,
      Schema.map_lawful ImageInfo.readBy.schema_lawful]
  read_eq_some_iff := by
    intro value content
    simp only [ofValue?, Option.bind_eq_bind, Option.bind_eq_some_iff]
    constructor
    · rintro ⟨record, hrecord, title, htitle, release, hrelease, authors, hauthors, description,
        hdescription, images, himages, ⟨⟩⟩
      exact ⟨record, hrecord, List.forall_iff_forall_mem.mp
        ⟨htitle, hrelease, hauthors, hdescription, himages⟩⟩
    · rintro ⟨record, hrecord, hfields⟩
      obtain ⟨htitle, hrelease, hauthors, hdescription, himages⟩ :=
        List.forall_iff_forall_mem.mpr hfields
      exact ⟨record, hrecord, _, htitle, _, hrelease, _, hauthors, _, hdescription, _, himages,
        rfl⟩

def schema : Schema ProgramInfo :=
  layout.schema ofValue?

end ProgramInfo

namespace Dialect

def layout : Layout Dialect where
  fields := [.plain "shift" Value.bool? shiftInPlace,
    .plain "memoryIncrementByX" Value.bool? shortAdvance,
    .plain "memoryLeaveIUnchanged" Value.bool? keepIndex,
    .plain "wrap" Value.bool? wrapSprites, .plain "jump" Value.bool? jumpByTopDigit,
    .plain "vblank" Value.bool? waitForBlank, .plain "logic" Value.bool? logicClearsFlag,
    .plain "scaleScroll" Value.bool? scaleScrolls]
  missing := { }

theorem readBy : layout.ReadBy ofValue? where
  nodup := by decide
  lawful := by simp [layout, Field.plain, Schema.plain_lawful]
  read_eq_some_iff := by
    intro value content
    simp only [ofValue?, Option.bind_eq_bind, Option.bind_eq_some_iff]
    constructor
    · rintro ⟨record, hrecord, shift, hshift, advance, hadvance, keep, hkeep, wrap, hwrap,
        jump, hjump, blank, hblank, logic, hlogic, scale, hscale, ⟨⟩⟩
      exact ⟨record, hrecord, List.forall_iff_forall_mem.mp
        ⟨hshift, hadvance, hkeep, hwrap, hjump, hblank, hlogic, hscale⟩⟩
    · rintro ⟨record, hrecord, hfields⟩
      obtain ⟨hshift, hadvance, hkeep, hwrap, hjump, hblank, hlogic, hscale⟩ :=
        List.forall_iff_forall_mem.mpr hfields
      exact ⟨record, hrecord, _, hshift, _, hadvance, _, hkeep, _, hwrap, _, hjump, _, hblank,
        _, hlogic, _, hscale, rfl⟩

def schema : Schema Dialect :=
  layout.schema ofValue?

end Dialect

namespace PlatformInfo

def layout : Layout PlatformInfo where
  fields := [.plain "id" Value.text? id, .plain "name" Value.text? name,
    .plain "description" Value.text? description, .plain "release" Value.text? release,
    .plain "displayResolutions" (Value.list? Value.text?) resolutions,
    .plain "defaultTickrate" Value.uint32? tickrate,
    { name := "quirks", schema := Dialect.schema, get := dialect }]
  missing := { }

theorem readBy : layout.ReadBy ofValue? where
  nodup := by decide
  lawful := by
    simp [layout, Field.plain, Schema.plain_lawful, Dialect.schema,
      Dialect.readBy.schema_lawful]
  read_eq_some_iff := by
    intro value content
    simp only [ofValue?, Option.bind_eq_bind, Option.bind_eq_some_iff]
    constructor
    · rintro ⟨record, hrecord, id, hid, name, hname, description, hdescription, release,
        hrelease, resolutions, hresolutions, tickrate, htickrate, dialect, hdialect, ⟨⟩⟩
      exact ⟨record, hrecord, List.forall_iff_forall_mem.mp
        ⟨hid, hname, hdescription, hrelease, hresolutions, htickrate, hdialect⟩⟩
    · rintro ⟨record, hrecord, hfields⟩
      obtain ⟨hid, hname, hdescription, hrelease, hresolutions, htickrate, hdialect⟩ :=
        List.forall_iff_forall_mem.mpr hfields
      exact ⟨record, hrecord, _, hid, _, hname, _, hdescription, _, hrelease, _, hresolutions,
        _, htickrate, _, hdialect, rfl⟩

def schema : Schema PlatformInfo :=
  layout.schema ofValue?

end PlatformInfo

namespace Catalogue

theorem readDocument_eq_ok_iff {α : Type} {document : Document} {read : Value → Option α}
    {text : String} {content : α} :
    readDocument document read text = .ok content ↔
      ∃ tree, Denotes text tree ∧ read tree = some content := by
  simp only [← Json.parse_eq_some_iff, ← Option.bind_eq_some_iff, readDocument]
  cases (Json.parse text).bind read <;> simp

theorem readDocument_eq_error {α : Type} {document : Document} {read : Value → Option α}
    {text : String} {tree : Value} (h : Denotes text tree) (hread : read tree = none) :
    readDocument document read text = .error (.malformed document) := by
  rw [readDocument, Json.parse_eq_some_iff.mpr h, Option.bind_some, hread]

/-- Two trees of which one can be edited into the other have the same content. -/
theorem readDocument_of_edits {α : Type} {document : Document} {schema : Schema α}
    (hschema : schema.Lawful) {text' : String} {tree tree' : Value} {content : α}
    (hread : schema.read tree = some content) (htext' : Denotes text' tree')
    (hedits : Relation.ReflTransGen schema.edits tree tree') :
    readDocument document schema.read text' = .ok content :=
  readDocument_eq_ok_iff.mpr ⟨tree', htext', hschema.read_of_many_edits hedits hread⟩

def readPrograms (text : String) : Except CatalogueError (List ProgramInfo) :=
  readDocument .programs (Value.list? ProgramInfo.ofValue?) text

def readPlatforms (text : String) : Except CatalogueError (List PlatformInfo) :=
  readDocument .platforms (Value.list? PlatformInfo.ofValue?) text

theorem programs_lawful : ProgramInfo.schema.list.Lawful :=
  Schema.list_lawful ProgramInfo.readBy.schema_lawful

theorem platforms_lawful : PlatformInfo.schema.list.Lawful :=
  Schema.list_lawful PlatformInfo.readBy.schema_lawful

variable {programs platforms index : String}

theorem ofTexts_eq (programs platforms index : String) :
    ofTexts programs platforms index =
      (readPrograms programs).bind fun programs =>
        (readPlatforms platforms).bind fun platforms =>
          (readDocument .index (Value.map? position?) index).bind fun index =>
            .ok { programs, platforms, index } := by
  rfl

theorem bind_eq_ok_iff {ε α β : Type} {result : Except ε α} {next : α → Except ε β} {b : β} :
    result.bind next = .ok b ↔ ∃ a, result = .ok a ∧ next a = .ok b := by
  cases result <;> simp [Except.bind]

theorem ofTexts_eq_ok_iff {catalogue : Catalogue} :
    ofTexts programs platforms index = .ok catalogue ↔
      readPrograms programs = .ok catalogue.programs ∧
        readPlatforms platforms = .ok catalogue.platforms ∧
        readDocument .index (Value.map? position?) index = .ok catalogue.index := by
  rw [ofTexts_eq]
  constructor
  · intro h
    obtain ⟨foundPrograms, hprograms, h⟩ := bind_eq_ok_iff.mp h
    obtain ⟨foundPlatforms, hplatforms, h⟩ := bind_eq_ok_iff.mp h
    obtain ⟨foundIndex, hindex, h⟩ := bind_eq_ok_iff.mp h
    cases h
    exact ⟨hprograms, hplatforms, hindex⟩
  · rintro ⟨hprograms, hplatforms, hindex⟩
    rw [hprograms, hplatforms, hindex]
    rfl

theorem ofTexts_of_programs_error {error : CatalogueError}
    (h : readPrograms programs = .error error) :
    ofTexts programs platforms index = .error error := by
  rw [ofTexts_eq, h]
  rfl

theorem ofTexts_of_platforms_error {found : List ProgramInfo} {error : CatalogueError}
    (hprograms : readPrograms programs = .ok found)
    (hplatforms : readPlatforms platforms = .error error) :
    ofTexts programs platforms index = .error error := by
  rw [ofTexts_eq, hprograms, hplatforms]
  rfl

/-- The records of a catalogue are read field by field. Once its texts can be read, all texts of
trees that edits of records lead to give the same catalogue; and a text with a known member
twice in some record gives an error with the name of its document, unless the one before it has
already failed. -/
theorem ofTexts_field_by_field (programs platforms index : String) (catalogue : Catalogue)
    (h : ofTexts programs platforms index = .ok catalogue) :
    (∃ programTree platformTree,
      Denotes programs programTree ∧ Denotes platforms platformTree ∧
        ∀ programs' platforms' programTree' platformTree',
          Denotes programs' programTree' → Denotes platforms' platformTree' →
          Relation.ReflTransGen ProgramInfo.schema.list.edits programTree programTree' →
          Relation.ReflTransGen PlatformInfo.schema.list.edits platformTree platformTree' →
          ofTexts programs' platforms' index = .ok catalogue) ∧
      (∀ programs' platforms' index' tree, Denotes programs' tree →
        ProgramInfo.schema.list.repeats tree →
        ofTexts programs' platforms' index' = .error (.malformed .programs)) ∧
      ∀ programs' platforms' index' tree, Denotes platforms' tree →
        PlatformInfo.schema.list.repeats tree →
        (∀ found, readPrograms programs' = .ok found →
          ofTexts programs' platforms' index' = .error (.malformed .platforms)) ∧
        ∀ error, readPrograms programs' = .error error →
          ofTexts programs' platforms' index' = .error error := by
  obtain ⟨hprograms, hplatforms, hindex⟩ := ofTexts_eq_ok_iff.mp h
  obtain ⟨programTree, hprogramTree, hprogramRead⟩ := readDocument_eq_ok_iff.mp hprograms
  obtain ⟨platformTree, hplatformTree, hplatformRead⟩ := readDocument_eq_ok_iff.mp hplatforms
  refine ⟨⟨programTree, platformTree, hprogramTree, hplatformTree, ?_⟩, ?_, ?_⟩
  · intro programs' platforms' programTree' platformTree' hprogram' hplatform' hprogramEdits
      hplatformEdits
    exact ofTexts_eq_ok_iff.mpr
      ⟨readDocument_of_edits programs_lawful hprogramRead hprogram' hprogramEdits,
        readDocument_of_edits platforms_lawful hplatformRead hplatform' hplatformEdits, hindex⟩
  · intro programs' platforms' index' tree htree hrepeats
    exact ofTexts_of_programs_error
      (readDocument_eq_error htree (programs_lawful.read_of_repeats hrepeats))
  · intro programs' platforms' index' tree htree hrepeats
    have herror : readPlatforms platforms' = .error (.malformed .platforms) :=
      readDocument_eq_error htree (platforms_lawful.read_of_repeats hrepeats)
    exact ⟨fun found hfound => ofTexts_of_platforms_error hfound herror,
      fun error herror => ofTexts_of_programs_error herror⟩

/-- A program with one image, of which the tickrate is written out although it is zero. -/
def pong : String :=
  "[\x7b\"title\":\"Pong\",\"roms\":\x7b\"a\":\x7b\"tickrate\":0,\"file\":\"p\"\x7d\x7d\x7d]"

def pongEdited : String :=
  "[\x7b\"note\":[],\"roms\":\x7b\"a\":\x7b\"file\":\"p\"\x7d\x7d,\"title\":\"Pong\"\x7d]"

def wrapping : String :=
  "[\x7b\"quirks\":\x7b\"wrap\":true\x7d\x7d]"

def wrappingTwice : String :=
  "[\x7b\"quirks\":\x7b\"wrap\":true,\"wrap\":true\x7d\x7d]"

def zero : Value :=
  .number { negative := false, digits := ['0'], plain := true }

def pongTree : Value :=
  .array [.object [(some "title", .string (some "Pong")),
    (some "roms", .object [(some "a",
      .object [(some "tickrate", zero), (some "file", .string (some "p"))])])]]

def pongTreeEdited : Value :=
  .array [.object [(some "note", .array []),
    (some "roms", .object [(some "a", .object [(some "file", .string (some "p"))])]),
    (some "title", .string (some "Pong"))]]

theorem pong_edits :
    Relation.ReflTransGen ProgramInfo.schema.list.edits pongTree pongTreeEdited := by
  have hroms : ProgramInfo.layout.fields[4]? =
      some { name := "roms", schema := ImageInfo.schema.map, get := ProgramInfo.images } := rfl
  have htickrate : ImageInfo.layout.fields[4]? =
      some (.plain "tickrate" Value.uint32? ImageInfo.tickrate) := rfl
  refine .head (.item [] [] (.reorder (List.Perm.swap _ _ []))) ?_
  have hnote : "note" ∉ ProgramInfo.layout.names := by decide
  refine .head (.item [] [] (.add (.array []) [] _ hnote)) ?_
  refine .head (.item [] [] (.member [_] _ (List.mem_of_getElem? hroms)
    (.entry _ [] [] (.leaveOut [] _ (List.mem_of_getElem? htickrate) rfl)))) ?_
  exact .refl

theorem denotes_pong : Denotes pong pongTree :=
  Json.parse_eq_some_iff.mp (by cbv)

theorem denotes_pongEdited : Denotes pongEdited pongTreeEdited :=
  Json.parse_eq_some_iff.mp (by cbv)

def wrappingTree (again : List (Option String × Value)) : Value :=
  .array [.object [(some "quirks", .object ((some "wrap", .bool true) :: again))]]

theorem denotes_wrapping : Denotes wrapping (wrappingTree []) :=
  Json.parse_eq_some_iff.mp (by cbv)

theorem denotes_wrappingTwice :
    Denotes wrappingTwice (wrappingTree [(some "wrap", .bool true)]) :=
  Json.parse_eq_some_iff.mp (by cbv)

def pongCatalogue : Catalogue where
  programs := [{ title := "Pong", images := [("a", { file := "p" })] }]
  platforms := [{ dialect := { wrapSprites := true } }]

theorem readPrograms_pong : readPrograms pong = .ok pongCatalogue.programs := by
  have himages : Value.map? ImageInfo.ofValue? (.object [(some "a",
      .object [(some "tickrate", zero), (some "file", .string (some "p"))])]) =
      some [("a", { file := "p" })] := by
    have hentries : [(some "a", Value.object [(some "tickrate", zero),
        (some "file", .string (some "p"))])].mapM (Json.member? ImageInfo.ofValue?) =
        some [("a", { file := "p" })] := rfl
    rw [Json.map?_object, hentries, Option.map_some, List.mergeSort_singleton]
    rfl
  have hprogram : ProgramInfo.ofValue? (.object [(some "title", .string (some "Pong")),
      (some "roms", .object [(some "a",
        .object [(some "tickrate", zero), (some "file", .string (some "p"))])])]) =
      some { title := "Pong", images := [("a", { file := "p" })] } :=
    ProgramInfo.readBy.read_eq_some_iff.mpr
      ⟨_, rfl, List.forall_iff_forall_mem.mp ⟨rfl, rfl, rfl, rfl, himages⟩⟩
  refine readDocument_eq_ok_iff.mpr ⟨pongTree, denotes_pong, ?_⟩
  simp only [pongTree, Value.list?, List.mapM_cons, List.mapM_nil, hprogram]
  rfl

theorem ofTexts_pong : ofTexts pong wrapping "\x7b\x7d" = .ok pongCatalogue := by
  refine ofTexts_eq_ok_iff.mpr ⟨readPrograms_pong, ?_, ?_⟩
  · exact readDocument_eq_ok_iff.mpr ⟨wrappingTree [], denotes_wrapping, rfl⟩
  · refine readDocument_eq_ok_iff.mpr ⟨.object [], Json.parse_eq_some_iff.mp (by cbv), ?_⟩
    rw [Json.map?_object]
    simp [Json.lastOfRuns, pongCatalogue]

theorem ofTexts_field_by_field_pong :
    ofTexts pong wrapping "\x7b\x7d" = .ok pongCatalogue ∧
      ofTexts pongEdited wrapping "\x7b\x7d" = .ok pongCatalogue ∧
      ofTexts pong wrappingTwice "\x7b\x7d" = .error (.malformed .platforms) := by
  obtain ⟨⟨programTree, platformTree, hprogram, hplatform, hedits⟩, -, hrepeats⟩ :=
    ofTexts_field_by_field pong wrapping "\x7b\x7d" pongCatalogue ofTexts_pong
  have hpong : programTree = pongTree := Option.some.inj
    ((Json.parse_eq_some_iff.mpr hprogram).symm.trans (Json.parse_eq_some_iff.mpr denotes_pong))
  refine ⟨ofTexts_pong, ?_, ?_⟩
  · exact hedits _ _ _ _ denotes_pongEdited hplatform (hpong ▸ pong_edits) .refl
  · have hquirks : PlatformInfo.layout.fields[6]? =
        some { name := "quirks", schema := Dialect.schema, get := PlatformInfo.dialect } := rfl
    have hwrap : Dialect.layout.fields[3]? =
        some (.plain "wrap" Value.bool? Dialect.wrapSprites) := rfl
    have htwice : PlatformInfo.schema.list.repeats
        (wrappingTree [(some "wrap", .bool true)]) :=
      .item List.mem_cons_self (.member (List.mem_of_getElem? hquirks) List.mem_cons_self
        (.twice _ _ [] [] [] (List.mem_of_getElem? hwrap)))
    exact (hrepeats pong wrappingTwice "\x7b\x7d" _ denotes_wrappingTwice htwice).1 _
      readPrograms_pong

end Catalogue

end ChipEight
