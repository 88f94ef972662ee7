import ChipEight.Proofs.Catalogue.FieldByField

/-!
When a directory holds a catalogue. Each of the three documents has to be there as a text that
denotes a tree with the content of this document. If one of them is not, however it is broken
and whatever the others are like, the catalogue cannot be opened.
-/

namespace ChipEight

open Json (Value Denotes)

namespace Document

/-- Where a document stands in a directory. -/
def path (directory : String) (document : Document) : String :=
  Path.join directory document.fileName

/-- The tree has the content that the document is read for. -/
def IsContent : Document → Value → Prop
  | .programs, tree => ∃ programs, Value.list? ProgramInfo.ofValue? tree = some programs
  | .platforms, tree => ∃ platforms, Value.list? PlatformInfo.ofValue? tree = some platforms
  | .index, tree => ∃ index, Value.map? Catalogue.position? tree = some index

/-- What a file with a text in it holds. -/
def bytes (text : String) : List UInt8 :=
  text.toByteArray.data.toList

theorem bytes_inj {text other : String} : bytes text = bytes other ↔ text = other := by
  rw [bytes, bytes, Array.toList_inj, ← ByteArray.ext_iff, String.toByteArray_inj]

theorem fromUTF8?_eq_some_iff {content : List UInt8} {text : String} :
    String.fromUTF8? (ByteArray.mk content.toArray) = some text ↔ content = bytes text := by
  unfold String.fromUTF8?
  constructor
  · intro h
    obtain ⟨hvalid, ⟨⟩⟩ := Option.dite_none_right_eq_some.mp h
    rfl
  · rintro rfl
    have hvalid : (ByteArray.mk (bytes text).toArray).IsValidUTF8 := text.isValidUTF8
    rw [dif_pos hvalid]
    rfl

/-- Why a document is of no use. -/
inductive Broken (read : FileReader) (directory : String) (document : Document) : Prop where
  | unreadable (reason : ReadError) (h : read (document.path directory) = .error reason)
  | notText (content : List UInt8) (h : read (document.path directory) = .ok content)
      (hcontent : ∀ text, bytes text ≠ content)
  | malformed (text : String) (h : read (document.path directory) = .ok (bytes text))
      (htext : ∀ tree, Denotes text tree → ¬ document.IsContent tree)

/-- The document can be read and understood. -/
def IsSound (read : FileReader) (directory : String) (document : Document) : Prop :=
  ∃ text tree, read (document.path directory) = .ok (bytes text) ∧ Denotes text tree ∧
    document.IsContent tree

theorem not_isSound_iff {read : FileReader} {directory : String} {document : Document} :
    ¬ document.IsSound read directory ↔ document.Broken read directory := by
  constructor
  · intro hunsound
    cases hread : read (document.path directory) with
    | error reason => exact .unreadable reason hread
    | ok content =>
      by_cases htext : ∃ text, bytes text = content
      · obtain ⟨text, rfl⟩ := htext
        exact .malformed text hread fun tree htree hcontent =>
          hunsound ⟨text, tree, hread, htree, hcontent⟩
      · exact .notText content hread fun text heq => htext ⟨text, heq⟩
  · rintro hbroken ⟨text, tree, hread, htree, hcontent⟩
    cases hbroken with
    | unreadable reason h =>
      rw [h] at hread
      cases hread
    | notText content h hnone =>
      rw [h] at hread
      cases hread
      exact hnone text rfl
    | malformed other h hnone =>
      rw [h] at hread
      obtain rfl : other = text := bytes_inj.mp (Except.ok.inj hread)
      exact hnone tree htree hcontent

end Document

namespace Catalogue

variable {read : FileReader} {directory : String}

theorem documentText_eq_ok_iff {document : Document} {text : String} :
    documentText read directory document = .ok text ↔
      read (document.path directory) = .ok (Document.bytes text) := by
  have hpath : Path.join directory document.fileName = document.path directory := rfl
  simp only [documentText, hpath]
  cases read (document.path directory) with
  | error reason => simp
  | ok content =>
    rw [Except.ok.injEq, ← Document.fromUTF8?_eq_some_iff]
    dsimp only
    cases String.fromUTF8? (ByteArray.mk content.toArray) <;> simp

theorem exists_readDocument_iff {α : Type} {document : Document} {reader : Value → Option α} :
    (∃ content, documentText read directory document >>= readDocument document reader =
        .ok content) ↔
      ∃ text tree, read (document.path directory) = .ok (Document.bytes text) ∧
        Denotes text tree ∧ ∃ content, reader tree = some content := by
  constructor
  · rintro ⟨content, h⟩
    obtain ⟨text, htext, hcontent⟩ := bind_eq_ok_iff.mp h
    obtain ⟨tree, htree, hread⟩ := readDocument_eq_ok_iff.mp hcontent
    exact ⟨text, tree, documentText_eq_ok_iff.mp htext, htree, content, hread⟩
  · rintro ⟨text, tree, htext, htree, content, hread⟩
    exact ⟨content, bind_eq_ok_iff.mpr ⟨text, documentText_eq_ok_iff.mpr htext,
      readDocument_eq_ok_iff.mpr ⟨tree, htree, hread⟩⟩⟩

theorem exists_ofDirectory_eq_ok_iff :
    (∃ catalogue, ofDirectory read directory = .ok catalogue) ↔
      ∀ document : Document, document.IsSound read directory := by
  have hopen : ofDirectory read directory =
      (documentText read directory .programs >>=
        readDocument .programs (Value.list? ProgramInfo.ofValue?)).bind fun programs =>
      (documentText read directory .platforms >>=
        readDocument .platforms (Value.list? PlatformInfo.ofValue?)).bind fun platforms =>
      (documentText read directory .index >>=
        readDocument .index (Value.map? position?)).bind fun index =>
      .ok { programs, platforms, index } := rfl
  constructor
  · rintro ⟨catalogue, h⟩
    rw [hopen] at h
    obtain ⟨programs, hprograms, h⟩ := bind_eq_ok_iff.mp h
    obtain ⟨platforms, hplatforms, h⟩ := bind_eq_ok_iff.mp h
    obtain ⟨index, hindex, -⟩ := bind_eq_ok_iff.mp h
    intro document
    cases document with
    | programs => exact exists_readDocument_iff.mp ⟨programs, hprograms⟩
    | platforms => exact exists_readDocument_iff.mp ⟨platforms, hplatforms⟩
    | index => exact exists_readDocument_iff.mp ⟨index, hindex⟩
  · intro hsound
    obtain ⟨programs, hprograms⟩ := exists_readDocument_iff.mpr (hsound .programs)
    obtain ⟨platforms, hplatforms⟩ := exists_readDocument_iff.mpr (hsound .platforms)
    obtain ⟨index, hindex⟩ := exists_readDocument_iff.mpr (hsound .index)
    refine ⟨{ programs, platforms, index }, ?_⟩
    rw [hopen, hprograms, hplatforms, hindex]
    rfl

/-- One broken document is enough. -/
theorem exists_ofDirectory_eq_error_iff :
    (∃ reason, ofDirectory read directory = .error reason) ↔
      ∃ document : Document, document.Broken read directory := by
  have hfails : (∃ reason, ofDirectory read directory = .error reason) ↔
      ¬ ∃ catalogue, ofDirectory read directory = .ok catalogue := by
    cases ofDirectory read directory <;> simp
  rw [hfails, exists_ofDirectory_eq_ok_iff, not_forall]
  exact exists_congr fun document => Document.not_isSound_iff

end Catalogue

end ChipEight
