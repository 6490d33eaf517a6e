import RenderTrace.Proofs.Settings
import RenderTrace.Settings.Load

/-!
# How loading settings ends

What is under the keys of a document is one source of errors. The others lie around
it: the path of the project, the system that is asked for the file, the bytes of the
file and the document in them. Which parser reads the document does not matter.
-/

namespace RenderTrace

namespace Settings

/-- The document of the settings file, if there is a file and it holds one. -/
def documentOf? (parse : List Char → Option Value) (files : Files) (root : Path) : Option Value :=
  match files (fileOf root) with
  | .error _ => none
  | .ok bytes => do
    let s ← Text.Utf8.decode? bytes
    parse (Text.unifyBreaks s.toList)

/-- The settings file of the project can be asked for: its path holds no null character, and the
system does not refuse it. -/
structure CanAsk (refuses : Path → Option String) (root : Path) : Prop where
  plain : root.holdsNull = false
  allowed : refuses (fileOf root) = none

/-- Why loading can end in an error that the user is not told of as one of the settings. -/
inductive Unreported (parse : List Char → Option Value) (refuses : Path → Option String)
    (files : Files) (root : Path) : Error → Prop
  | nullInRoot (holds : root.holdsNull) : Unreported parse refuses files root .nullInRoot
  | refused {cause : String} (refusal : refuses (fileOf root) = some cause) :
      Unreported parse refuses files root (.refused cause)
  | noText {bytes : List UInt8} (content : files (fileOf root) = .ok bytes)
      (broken : Text.Utf8.decode? bytes = none) :
      Unreported parse refuses files root (.noText (fileOf root))
  | depthInfinite {raw : List (Value × Value)}
      (document : documentOf? parse files root = some (.mapping raw))
      (asks : AsksInfiniteDepth raw) : Unreported parse refuses files root .depthInfinite
  | longNumeral {v : Value} (document : documentOf? parse files root = some v)
      (long : v.isShowable = false) : Unreported parse refuses files root .longNumeral

theorem ofDocument_of_isFalsy {v : Value} (root file : Path) (falsy : v.isFalsy) :
    ofDocument root file v = .ok (usualFrom root) := by
  rw [ofDocument.eq_def, if_pos falsy, ofEntries_nil]

theorem ofDocument_of_not_mapping {v : Value} (root file : Path) (holds : v.isFalsy = false)
    (other : ∀ raw, v ≠ .mapping raw) : ofDocument root file v = .error (.noMapping file) := by
  rw [ofDocument.eq_def, holds, if_neg Bool.false_ne_true]
  split
  next raw => exact absurd rfl (other raw)
  · rfl

/-- Why a document can be refused. -/
theorem ofDocument_failsOnly (root file : Path) (v : Value) :
    FailsOnly (fun e => Explains v e ∨
      e = .depthInfinite ∧ ∃ raw, v = .mapping raw ∧ AsksInfiniteDepth raw)
      (ofDocument root file v) := by
  rw [ofDocument.eq_def]
  split
  · rw [ofEntries_nil]
    exact .ok _
  next holds =>
    split
    next raw =>
      refine (ofEntries_failsOnly root raw).mono fun e => ?_
      rintro (told | ⟨rfl, asks⟩)
      · exact .inl told
      · exact .inr ⟨rfl, raw, rfl, asks⟩
    · exact .error (.inl (.inl rfl))

section Surroundings

variable {parse : List Char → Option Value} {refuses : Path → Option String} {files : Files}
  {root : Path}

theorem load_of_holdsNull (null : root.holdsNull) :
    load parse refuses files root = .error .nullInRoot := by
  rw [load, if_pos null]

theorem load_of_refused {cause : String} (plain : root.holdsNull = false)
    (refusal : refuses (fileOf root) = some cause) :
    load parse refuses files root = .error (.refused cause) := by
  rw [load, plain, if_neg Bool.false_ne_true, refusal]

theorem load_of_absent {cause : FileError} (canAsk : CanAsk refuses root)
    (absent : files (fileOf root) = .error cause) :
    load parse refuses files root = .ok (usualFrom root) := by
  rw [load, canAsk.plain, if_neg Bool.false_ne_true, canAsk.allowed, absent]
  exact ofEntries_nil root

theorem load_of_content {bytes : List UInt8} (canAsk : CanAsk refuses root)
    (content : files (fileOf root) = .ok bytes) :
    load parse refuses files root = ofBytes parse root (fileOf root) bytes := by
  rw [load, canAsk.plain, if_neg Bool.false_ne_true, canAsk.allowed, content]

theorem load_of_document {v : Value} (canAsk : CanAsk refuses root)
    (document : documentOf? parse files root = some v) :
    load parse refuses files root = ofDocument root (fileOf root) v := by
  rw [documentOf?] at document
  cases content : files (fileOf root) with
  | error cause => rw [content] at document; exact absurd document nofun
  | ok bytes =>
      rw [content] at document
      obtain ⟨s, decoded, parsed⟩ := Option.bind_eq_some_iff.mp document
      simp only [load_of_content canAsk content, ofBytes, decoded, parsed]

/-- A file that holds no document is refused, as no text or as no document. -/
theorem load_of_no_document {bytes : List UInt8} (canAsk : CanAsk refuses root)
    (content : files (fileOf root) = .ok bytes) (document : documentOf? parse files root = none) :
    load parse refuses files root = .error (if Text.Utf8.decode? bytes = none
      then .noText (fileOf root) else .noDocument (fileOf root)) := by
  rw [load_of_content canAsk content, ofBytes]
  cases decoded : Text.Utf8.decode? bytes with
  | none => rfl
  | some s =>
      have parsed : parse (Text.unifyBreaks s.toList) = none := by
        simpa [documentOf?, content, decoded] using document
      simp only [parsed, reduceCtorEq, if_false]

/-- Every way in which loading can fail where the settings file can be asked for. -/
theorem load_failsOnly_of_canAsk (canAsk : CanAsk refuses root) :
    FailsOnly (fun e => e.isReported ∨ Unreported parse refuses files root e)
      (load parse refuses files root) := by
  cases content : files (fileOf root) with
  | error cause =>
      rw [load_of_absent canAsk content]
      exact .ok _
  | ok bytes =>
      cases document : documentOf? parse files root with
      | none =>
          rw [load_of_no_document canAsk content document]
          split
          next broken => exact .error (.inr (.noText content broken))
          · exact .error (.inl rfl)
      | some v =>
          rw [load_of_document canAsk document]
          refine (ofDocument_failsOnly root (fileOf root) v).mono fun e => ?_
          rintro ((told | ⟨rfl, long⟩) | ⟨rfl, raw, rfl, asks⟩)
          · exact .inl told
          · exact .inr (.longNumeral document long)
          · exact .inr (.depthInfinite document asks)

/-- Every way in which loading can fail. -/
theorem load_failsOnly :
    FailsOnly (fun e => e.isReported ∨ Unreported parse refuses files root e)
      (load parse refuses files root) := by
  cases null : root.holdsNull with
  | true =>
      rw [load_of_holdsNull null]
      exact .error (.inr (.nullInRoot null))
  | false =>
      cases refusal : refuses (fileOf root) with
      | some cause =>
          rw [load_of_refused null refusal]
          exact .error (.inr (.refused refusal))
      | none => exact load_failsOnly_of_canAsk ⟨null, refusal⟩

end Surroundings

/-- Loading settings, with any parser of documents and any system, gives the usual ones where there
is no file and where the document is falsy, and refuses every other document that is no mapping. Any
error it ends in is one that the user is told of, unless the path of the project holds a null
character, the system refuses the file, the file is no well-formed text, the depth is infinite or an
integer is too long to be written. -/
theorem load_ends (parse : List Char → Option Value) (refuses : Path → Option String)
    (files : Files) (root : Path) :
    (CanAsk refuses root → ∀ cause, files (fileOf root) = .error cause →
      load parse refuses files root = .ok (usualFrom root)) ∧
    (CanAsk refuses root → ∀ v, documentOf? parse files root = some v →
      load parse refuses files root = ofDocument root (fileOf root) v) ∧
    (CanAsk refuses root → ∀ bytes, files (fileOf root) = .ok bytes →
      documentOf? parse files root = none →
      load parse refuses files root = .error (if Text.Utf8.decode? bytes = none
        then .noText (fileOf root) else .noDocument (fileOf root))) ∧
    (root.holdsNull → load parse refuses files root = .error .nullInRoot) ∧
    (root.holdsNull = false → ∀ cause, refuses (fileOf root) = some cause →
      load parse refuses files root = .error (.refused cause)) ∧
    (∀ file v, v.isFalsy → ofDocument root file v = .ok (usualFrom root)) ∧
    (∀ file v, v.isFalsy = false → (∀ raw, v ≠ .mapping raw) →
      ofDocument root file v = .error (.noMapping file)) ∧
    (∀ file v e, ofDocument root file v = .error e →
      e.isReported ∨ e = .longNumeral ∧ v.isShowable = false ∨
        e = .depthInfinite ∧ ∃ raw, v = .mapping raw ∧ AsksInfiniteDepth raw) ∧
    ∀ e, load parse refuses files root = .error e →
      e.isReported ∨ Unreported parse refuses files root e := by
  refine ⟨fun canAsk _ absent => load_of_absent canAsk absent,
    fun canAsk _ document => load_of_document canAsk document,
    fun canAsk _ content document => load_of_no_document canAsk content document,
    load_of_holdsNull, fun plain _ refusal => load_of_refused plain refusal,
    fun file _ falsy => ofDocument_of_isFalsy root file falsy,
    fun file _ holds other => ofDocument_of_not_mapping root file holds other,
    fun file v e failed => ?_, load_failsOnly⟩
  exact or_assoc.mp (ofDocument_failsOnly root file v e failed)

/-- A settings file whose one byte begins no character. -/
def illFormedFile : Files :=
  fun _ => .ok [0xFF]

/-- A settings file that holds an empty list. -/
def emptyListFile : Files :=
  fun _ => .ok [0x5B, 0x5D, 0x0A]

/-- A parser that knows the empty list on a line of its own. -/
def emptyListParser (cs : List Char) : Option Value :=
  if cs = ['[', ']', '\n'] then some (.list []) else none

/-- A system that refuses nothing. -/
def openSystem : Path → Option String :=
  fun _ => none

theorem canAsk_appFolder : CanAsk openSystem appFolder :=
  ⟨rfl, rfl⟩

theorem decode?_illFormed : Text.Utf8.decode? [0xFF] = none := by
  decide +kernel

theorem documentOf?_illFormedFile :
    documentOf? emptyListParser illFormedFile appFolder = none := by
  simp only [documentOf?, illFormedFile, decode?_illFormed]
  rfl

theorem documentOf?_emptyListFile :
    documentOf? emptyListParser emptyListFile appFolder = some (.list []) := by
  have decoded : Text.Utf8.decode? [0x5B, 0x5D, 0x0A] = some "[]\n" := by decide +kernel
  simp only [documentOf?, emptyListFile, decoded]
  rfl

theorem load_ends_emptyListFile :
    load emptyListParser openSystem (fun _ => .error .missing) appFolder =
      .ok (usualFrom appFolder) ∧
    load emptyListParser openSystem emptyListFile appFolder =
      ofDocument appFolder (fileOf appFolder) (.list []) ∧
    ofDocument appFolder (fileOf appFolder) (.list []) = .ok (usualFrom appFolder) ∧
    ofDocument appFolder (fileOf appFolder) (.int 5) = .error (.noMapping (fileOf appFolder)) ∧
    ((Error.noMapping (fileOf appFolder)).isReported ∨ Error.noMapping (fileOf appFolder) =
      .longNumeral ∧ (Value.int 5).isShowable = false ∨ Error.noMapping (fileOf appFolder) =
        .depthInfinite ∧ ∃ raw, Value.int 5 = .mapping raw ∧ AsksInfiniteDepth raw) ∧
    load emptyListParser openSystem illFormedFile appFolder =
      .error (.noText (fileOf appFolder)) ∧
    ((Error.noText (fileOf appFolder)).isReported ∨
      Unreported emptyListParser openSystem illFormedFile appFolder
        (.noText (fileOf appFolder))) := by
  obtain ⟨absent, _⟩ := load_ends emptyListParser openSystem (fun _ => .error .missing) appFolder
  obtain ⟨_, document, _, _, _, falsy, other, told, _⟩ :=
    load_ends emptyListParser openSystem emptyListFile appFolder
  obtain ⟨_, _, noDocument, _, _, _, _, _, ends⟩ :=
    load_ends emptyListParser openSystem illFormedFile appFolder
  have refused := other (fileOf appFolder) (.int 5) rfl nofun
  have broken := noDocument canAsk_appFolder [0xFF] rfl documentOf?_illFormedFile
  rw [if_pos decode?_illFormed] at broken
  exact ⟨absent canAsk_appFolder .missing rfl,
    document canAsk_appFolder (.list []) documentOf?_emptyListFile,
    falsy _ (.list []) rfl, refused, told _ _ _ refused, broken, ends _ broken⟩

/-- Not every error of loading is one the user is told of, and not every document that is neither
null nor a mapping is refused. -/
theorem load_unreported :
    (∃ e, load emptyListParser openSystem illFormedFile appFolder = .error e ∧
      e.isReported = false) ∧
    documentOf? emptyListParser emptyListFile appFolder = some (.list []) ∧
    load emptyListParser openSystem emptyListFile appFolder = .ok (usualFrom appFolder) := by
  have content : illFormedFile (fileOf appFolder) = .ok [0xFF] := rfl
  have broken := load_of_no_document canAsk_appFolder content documentOf?_illFormedFile
  refine ⟨⟨_, broken, ?_⟩, documentOf?_emptyListFile, ?_⟩
  · rw [if_pos decode?_illFormed]
    rfl
  · rw [load_of_document canAsk_appFolder documentOf?_emptyListFile,
      ofDocument_of_isFalsy _ _ rfl]

end Settings

end RenderTrace
