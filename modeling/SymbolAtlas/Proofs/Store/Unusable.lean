import SymbolAtlas.Proofs.Attempts
import SymbolAtlas.Proofs.Data.Reading
import SymbolAtlas.Proofs.Store.Atomic

/-
  Artifacts that cannot be used.

  Whatever bytes are in the artifact, a snapshot is read from
  them or there is nothing, but for three kinds of content.
  Brackets that are nested too deep are an error, and so is an
  infinite number where a whole one is read. A text there is
  quoted in a notice that may not be shown.

  Key definitions:
    * `Snapshot.readings`, `Snapshot.StumblesAt`
    * `Store.BreaksOn`, `Store.IsReady`
  Key theorems:
    * `Snapshot.ofArtifact_error_cases`
    * `Store.read_of_content`
    * `Store.breaksOn_iff`, `Store.breaksOn_brackets`
-/

------------------------------------------------------------
-- Whole Numbers of a Snapshot
------------------------------------------------------------

namespace SymbolAtlas

namespace Snapshot

/-
  What the time of an entry is read from, if it has two parts and
  the first can be shown.
-/
def timeOf (datum : Datum) : Option Datum :=
  match twoParts datum with
  | .ok (file, time) => (fileOf file).toOption.map fun _ => time
  | .error _ => none

/-
  What whole numbers are read from in a field, in order. Nothing
  stands for what has not the form to read one from.
-/
def readingsIn
    (part : Datum → Option Datum)
    (datum : Datum)
    (key : String) : List (Option Datum) :=
  match datum.field? key with
  | some (.record fields) => fields.map fun field => part field.2
  | _ => [none]

/- What whole numbers are read from in a snapshot, in order. -/
def readings (datum : Datum) : List (Option Datum) :=
  readingsIn timeOf datum "symbols" ++
    (readingsIn some datum "missing" ++
      readingsIn some datum "empty_files")

/- A whole number can be read. -/
def IsWhole (reading : Option Datum) : Prop :=
  ∃ value n, reading = some value ∧ intOf value = .ok n

/- The first reading that is no whole number. -/
def MeetsFirst
    (datum : Datum)
    (reading : Option Datum) : Prop :=
  ¬ IsWhole reading ∧
  ∃ before after,
    readings datum = before ++ reading :: after ∧
    ∀ other ∈ before, IsWhole other

/- The content has the form of a snapshot up to a reading. -/
def StumblesAt
    (content : ByteArray)
    (room : Nat)
    (reading : Option Datum) : Prop :=
  ∃ datum,
    dataIn content room = .ok datum ∧
    hasFormat datum = true ∧ MeetsFirst datum reading

/- Look at a reading. -/
def tryReading : Option Datum → Except Error Unit
| some value => (intOf value).map fun _ => ()
| none => .error .malformedSnapshot

theorem tryReading_eq_ok_iff
    {reading : Option Datum} :
    tryReading reading = .ok () ↔ IsWhole reading := by
  cases reading with
  | none =>
      constructor
      · intro hOk
        cases hOk
      · rintro ⟨value, n, hNone, -⟩
        cases hNone
  | some value =>
      unfold tryReading IsWhole
      cases hInt : intOf value with
      | ok n => simp [hInt, Except.map]
      | error error => simp [hInt, Except.map]

/- What goes wrong when a whole number is read. -/
theorem intOf_error_cases
    {value : Datum}
    {error : Error}
    (hError : intOf value = .error error) :
    error = .malformedSnapshot ∨
    (∃ negative,
      value = .real (.infinite negative) ∧
      error = .infiniteNumber) ∨
    ∃ text, value = .text text ∧ error = .notWhole text := by
  unfold intOf at hError
  split at hError
  · cases hError
  · cases hError
  · next negative =>
      cases hError
      exact .inr (.inl ⟨negative, rfl, rfl⟩)
  · split at hError
    · cases hError
    · cases hError
      exact .inl rfl
  · next text =>
      split at hError
      · cases hError
      · cases hError
        exact .inr (.inr ⟨text, rfl, rfl⟩)
  · cases hError
    exact .inl rfl

theorem tryReading_error_cases
    {reading : Option Datum}
    {error : Error}
    (hError : tryReading reading = .error error) :
    error = .malformedSnapshot ∨
    (∃ negative,
      reading = some (.real (.infinite negative)) ∧
      error = .infiniteNumber) ∨
    ∃ text,
      reading = some (.text text) ∧ error = .notWhole text := by
  cases reading with
  | none =>
      cases hError
      exact .inl rfl
  | some value =>
      unfold tryReading at hError
      cases hInt : intOf value with
      | ok n =>
          simp only [hInt] at hError
          cases hError
      | error other =>
          simp only [hInt] at hError
          cases hError
          simpa using intOf_error_cases hInt

variable {datum : Datum} {key : String}

/- A field has the troubles of its readings. -/
theorem map_fieldOf
    {α : Type}
    {f : Datum → Except Error α}
    {part : Datum → Option Datum}
    (hPart :
      ∀ value, (f value).map (fun _ => ()) =
        tryReading (part value)) :
    (fieldOf f datum key).map (fun _ => ()) =
      (readingsIn part datum key).forM tryReading := by
  have hFields (fields : List (String × Datum)) :
      ((fields.mapM fun field =>
        (f field.2).map (field.1, ·)).map Keyed.ofList).map
          (fun _ => ()) =
      (fields.map fun field => part field.2).forM tryReading := by
    have hEach :
        (fun field : String × Datum =>
          ((f field.2).map (field.1, ·)).map fun _ => ()) =
        fun field => tryReading (part field.2) := by
      funext field
      rw [← hPart]
      cases f field.2 with
      | error error => rfl
      | ok value => rfl
    have hForM :
        (fields.map fun field => part field.2).forM tryReading =
          fields.forM fun field => tryReading (part field.2) :=
      List.forM_map
    rw [hForM, ← hEach, ← map_mapM]
    cases fields.mapM fun field =>
        (f field.2).map (field.1, ·) with
    | error error => rfl
    | ok values => rfl
  unfold fieldOf readingsIn
  cases datum.field? key with
  | none => rfl
  | some value =>
      cases value with
      | record fields => exact hFields fields
      | null => rfl
      | bool b => rfl
      | int n => rfl
      | real x => rfl
      | text s => rfl
      | moment m => rfl
      | list items => rfl

theorem map_entryOf
    (value : Datum) :
    (entryOf value).map (fun _ => ()) =
      tryReading (timeOf value) := by
  unfold entryOf timeOf
  cases hParts : twoParts value with
  | error error =>
      have hError : error = .malformedSnapshot := by
        unfold twoParts at hParts
        split at hParts
        · cases hParts
        · cases hParts
        · split at hParts
          · cases hParts
          · cases hParts
            rfl
        · cases hParts
          rfl
      rw [hError]
      rfl
  | ok parts =>
      change (fileOf parts.1 >>= fun file =>
          intOf parts.2 >>= fun n => pure _).map _ =
        tryReading ((fileOf parts.1).toOption.map fun _ => parts.2)
      cases hFile : fileOf parts.1 with
      | error error =>
          unfold fileOf at hFile
          split at hFile
          · cases hFile
          · cases hFile
            rfl
      | ok file =>
          change (intOf parts.2 >>= fun n => pure _).map _ =
            (intOf parts.2).map _
          cases intOf parts.2 with
          | error error => rfl
          | ok n => rfl

/- A snapshot has the troubles of all its readings. -/
theorem map_ofDatum
    (hFormat : hasFormat datum = true) :
    (ofDatum datum).map (fun _ => ()) =
      (readings datum).forM tryReading := by
  have hWhole (value : Datum) :
      (intOf value).map (fun _ => ()) = tryReading (some value) :=
    rfl
  have hSplit (before after : List (Option Datum)) :
      (before ++ after).forM tryReading =
        before.forM tryReading >>= fun _ =>
          after.forM tryReading :=
    List.forM_append
  unfold readings
  rw [hSplit, hSplit, ← map_fieldOf map_entryOf,
    ← map_fieldOf hWhole, ← map_fieldOf hWhole]
  unfold ofDatum
  rw [hFormat]
  cases fieldOf entryOf datum "symbols" with
  | error error => rfl
  | ok symbols =>
      cases fieldOf intOf datum "missing" with
      | error error => rfl
      | ok missing =>
          cases fieldOf intOf datum "empty_files" with
          | error error => rfl
          | ok emptyFiles => rfl

/- It fails as its first reading that is no whole number does. -/
theorem ofDatum_eq_error_iff
    {error : Error}
    (hFormat : hasFormat datum = true) :
    ofDatum datum = .error error ↔
      ∃ reading,
        MeetsFirst datum reading ∧
        tryReading reading = .error error := by
  have hMap :
      ofDatum datum = .error error ↔
        (readings datum).forM tryReading = .error error := by
    rw [← map_ofDatum hFormat]
    cases ofDatum datum with
    | ok k => simp [Except.map]
    | error other => simp [Except.map]
  rw [hMap, forM_eq_error_iff]
  simp only [tryReading_eq_ok_iff]
  constructor
  · rintro ⟨before, reading, after, hReadings, hBefore, hError⟩
    refine ⟨reading, ⟨?_, before, after, hReadings, hBefore⟩,
      hError⟩
    intro hWhole
    rw [tryReading_eq_ok_iff.mpr hWhole] at hError
    cases hError
  · rintro ⟨reading, ⟨-, before, after, hReadings, hBefore⟩,
      hError⟩
    exact ⟨before, reading, after, hReadings, hBefore, hError⟩

end Snapshot

end SymbolAtlas

------------------------------------------------------------
-- Contents That Are No Snapshot
------------------------------------------------------------

namespace SymbolAtlas

namespace Snapshot

variable {content : ByteArray} {room : Nat} {error : Error}

/- Data are not found because a text is no such, or too deep. -/
theorem dataIn_error_cases
    (hError : dataIn content room = .error error) :
    error = .malformedSnapshot ∨ error = .tooDeep := by
  unfold dataIn at hError
  split at hError
  · cases hError
    exact .inl rfl
  · split at hError
    · cases hError
    · cases hError
      exact .inl rfl
    · cases hError
      exact .inr rfl

/- What goes wrong when a snapshot is read. -/
theorem ofArtifact_error_cases
    (hError : ofArtifact content room = .error error) :
    error = .notSnapshot ∨ error = .malformedSnapshot ∨
    (dataIn content room = .error .tooDeep ∧ error = .tooDeep) ∨
    (∃ negative,
      StumblesAt content room
        (some (.real (.infinite negative))) ∧
      error = .infiniteNumber) ∨
    ∃ text,
      StumblesAt content room (some (.text text)) ∧
      error = .notWhole text := by
  unfold ofArtifact at hError
  cases hData : dataIn content room with
  | error other =>
      rw [hData] at hError
      cases hError
      rcases dataIn_error_cases hData with rfl | rfl
      · exact .inr (.inl rfl)
      · exact .inr (.inr (.inl ⟨rfl, rfl⟩))
  | ok datum =>
      rw [hData] at hError
      change ofDatum datum = .error error at hError
      cases hFormat : hasFormat datum with
      | false =>
          unfold ofDatum at hError
          rw [hFormat] at hError
          cases hError
          exact .inl rfl
      | true =>
          rcases (ofDatum_eq_error_iff hFormat).mp hError with
            ⟨reading, hFirst, hTry⟩
          have hStumbles : StumblesAt content room reading :=
            ⟨datum, hData, hFormat, hFirst⟩
          right
          rcases tryReading_error_cases hTry with
            rfl | ⟨negative, rfl, rfl⟩ | ⟨text, rfl, rfl⟩
          · exact .inl rfl
          · exact .inr (.inr (.inl ⟨negative, hStumbles, rfl⟩))
          · exact .inr (.inr (.inr ⟨text, hStumbles, rfl⟩))

/- Data that are nested too deep are no snapshot. -/
theorem ofArtifact_eq_tooDeep_iff :
    ofArtifact content room = .error .tooDeep ↔
      dataIn content room = .error .tooDeep := by
  constructor
  · intro hError
    rcases ofArtifact_error_cases hError with
      hOther | hOther | ⟨hDeep, -⟩ | ⟨negative, -, hOther⟩ |
      ⟨text, -, hOther⟩
    · cases hOther
    · cases hOther
    · exact hDeep
    · cases hOther
    · cases hOther
  · intro hDeep
    unfold ofArtifact
    rw [hDeep]
    rfl

/- The first reading that is no whole number tells the error. -/
theorem ofArtifact_of_stumblesAt
    {reading : Option Datum}
    (hStumbles : StumblesAt content room reading)
    (hError : tryReading reading = .error error) :
    ofArtifact content room = .error error := by
  rcases hStumbles with ⟨datum, hData, hFormat, hFirst⟩
  unfold ofArtifact
  rw [hData]
  exact (ofDatum_eq_error_iff hFormat).mpr
    ⟨reading, hFirst, hError⟩

/- An infinite number where a whole one is read is an error. -/
theorem ofArtifact_eq_infinite_iff :
    ofArtifact content room = .error .infiniteNumber ↔
      ∃ negative,
        StumblesAt content room
          (some (.real (.infinite negative))) := by
  constructor
  · intro hError
    rcases ofArtifact_error_cases hError with
      hOther | hOther | ⟨-, hOther⟩ | ⟨negative, hStumbles, -⟩ |
      ⟨text, -, hOther⟩
    · cases hOther
    · cases hOther
    · cases hOther
    · exact ⟨negative, hStumbles⟩
    · cases hOther
  · rintro ⟨negative, hStumbles⟩
    exact ofArtifact_of_stumblesAt hStumbles rfl

/- So is a text, which is quoted then. -/
theorem ofArtifact_eq_notWhole_iff
    {text : String} :
    ofArtifact content room = .error (.notWhole text) ↔
      StumblesAt content room (some (.text text)) := by
  constructor
  · intro hError
    rcases ofArtifact_error_cases hError with
      hOther | hOther | ⟨-, hOther⟩ | ⟨negative, -, hOther⟩ |
      ⟨other, hStumbles, hOther⟩
    · cases hOther
    · cases hOther
    · cases hOther
    · cases hOther
    · cases hOther
      exact hStumbles
  · intro hStumbles
    apply ofArtifact_of_stumblesAt hStumbles
    rcases hStumbles with ⟨datum, -, -, hNot, -⟩
    have hInt : Datum.intOfText? text = none := by
      rw [Option.eq_none_iff_forall_ne_some]
      intro n hSome
      refine hNot ⟨.text text, n, rfl, ?_⟩
      unfold intOf
      dsimp only
      rw [hSome]
    unfold tryReading intOf
    dsimp only
    rw [hInt]
    rfl

end Snapshot

end SymbolAtlas

------------------------------------------------------------
-- Reading Whatever Is There
------------------------------------------------------------

namespace SymbolAtlas

/- A reason without tags can be told if the artifact can. -/
theorem Notice.check_unusable
    (stem : String)
    {reason : String}
    (hPlain : Markup.AllPlain reason) :
    (Notice.unusable (stem ++ ".json") reason).check =
      (Notice.cacheHit (stem ++ ".json")).check := by
  have hBehind :
      "Cache " ++ (stem ++ ".json") ++ " unusable: " ++ reason =
        "Cache " ++ stem ++ (".json unusable: " ++ reason) := by
    have hEnding :
        ".json" ++ (" unusable: " ++ reason) =
          ".json unusable: " ++ reason := by
      rw [← String.append_assoc]
      rfl
    simp only [String.append_assoc, hEnding]
  have hHit :
      "Cache hit " ++ (stem ++ ".json") =
        "Cache hit " ++ stem ++ ".json" :=
    String.append_assoc.symm
  have hFront : Markup.AllPlain ".json unusable: " := by
    decide
  have hBack : Markup.AllPlain (".json unusable: " ++ reason) := by
    unfold Markup.AllPlain
    rw [String.toList_append, List.forall_mem_append]
    exact ⟨hFront, hPlain⟩
  have hSome : (".json unusable: " ++ reason).toList ≠ [] := by
    rw [String.toList_append]
    simp
  change
    (Markup.plain (dimmed
      ("Cache " ++ (stem ++ ".json") ++ " unusable: " ++
        reason))).map _ =
    (Markup.plain (dimmed
      ("Cache hit " ++ (stem ++ ".json")))).map _
  rw [hBehind, hHit]
  exact dimmed_alike stem (by decide) (by decide) hBack
    (by decide) hSome (by decide)

namespace Store

variable {s : Store} {content : ByteArray}

/- Reading the content is an error, or a notice about it is. -/
def BreaksOn (s : Store) (content : ByteArray) : Prop :=
  ∃ error,
    Snapshot.ofArtifact content s.room = .error error ∧
    (error = .infiniteNumber ∨ error = .tooDeep ∨
      s.isDebug = true ∧
      (Notice.unusable s.path error.reason).check ≠ .ok ())

/-
  Whatever is in the artifact, it is read or there is nothing.
  An error leaves everything as it was.
-/
theorem read_of_content
    {desk : Desk}
    (hContent : desk.disk.read s.path = .ok content) :
    (s.BreaksOn content ∧
      ∃ error, s.read desk = .error error desk) ∨
    (¬ s.BreaksOn content ∧
      ∃ notices,
        s.read desk =
          .ok (Snapshot.ofArtifact content s.room).toOption
            { desk with notices := notices }) := by
  cases hSnapshot : Snapshot.ofArtifact content s.room with
  | ok k =>
      right
      refine ⟨?_, desk.notices,
        read_of_ofArtifact hContent hSnapshot⟩
      rintro ⟨error, hError, -⟩
      rw [hSnapshot] at hError
      cases hError
  | error error =>
      have hBreaks :
          s.BreaksOn content ↔
            (error = .infiniteNumber ∨ error = .tooDeep) ∨
              s.isDebug = true ∧
              (Notice.unusable s.path error.reason).check ≠
                .ok () := by
        unfold BreaksOn
        rw [hSnapshot]
        simp [or_assoc]
      rw [hBreaks]
      by_cases hFatal : error = .infiniteNumber ∨ error = .tooDeep
      · left
        exact ⟨.inl hFatal, error,
          read_of_fatal hContent hSnapshot hFatal⟩
      · rw [read_of_unusable hContent hSnapshot hFatal, discard_eq]
        simp only [hFatal, false_or]
        cases hDebug : s.isDebug with
        | false => exact .inr ⟨by simp, desk.notices, rfl⟩
        | true =>
            cases hCheck :
                (Notice.unusable s.path error.reason).check with
            | error other =>
                exact .inl ⟨by simp, other, rfl⟩
            | ok shown => exact .inr ⟨by simp, _, rfl⟩

/- The artifact has a name with an ending. -/
theorem exists_path_eq
    (s : Store) :
    ∃ stem, s.path = stem ++ ".json" := by
  rcases s.exists_alike with ⟨t, hKey, hAlike⟩
  rcases exists_stem hKey with ⟨stem, hStem⟩
  refine ⟨stem, ?_⟩
  rw [← hAlike.path]
  exact hStem ".json" (by decide)

/-
  If the artifact can be told about, only three contents break a
  read: one that is nested too deep, one with an infinite number
  where a whole one is read first in vain, and, if everything is
  told, one with a text there whose quotation cannot be shown.
-/
theorem breaksOn_iff
    (hCanTell : s.CanTell) :
    s.BreaksOn content ↔
      Snapshot.dataIn content s.room = .error .tooDeep ∨
      (∃ negative,
        Snapshot.StumblesAt content s.room
          (some (.real (.infinite negative)))) ∨
      s.isDebug = true ∧
      ∃ text,
        Snapshot.StumblesAt content s.room (some (.text text)) ∧
        (Notice.unusable s.path
          (Error.notWhole text).reason).check ≠ .ok () := by
  rcases s.exists_path_eq with ⟨stem, hStem⟩
  have hTold (error : Error)
      (hPlain : Markup.AllPlain error.reason)
      (hDebug : s.isDebug = true) :
      (Notice.unusable s.path error.reason).check = .ok () := by
    have hHit := hCanTell hDebug
    rw [hStem] at hHit ⊢
    rw [Notice.check_unusable stem hPlain]
    exact hHit
  unfold BreaksOn
  constructor
  · -- Of all reasons only that of a text can hold a tag.
    rintro ⟨error, hError, hBreaks⟩
    rcases Snapshot.ofArtifact_error_cases hError with
      rfl | rfl | ⟨hDeep, -⟩ | ⟨negative, hStumbles, -⟩ |
      ⟨text, hStumbles, rfl⟩
    · rcases hBreaks with hInfinite | hDeep | ⟨hDebug, hCheck⟩
      · cases hInfinite
      · cases hDeep
      · exact absurd (hTold _ (by decide) hDebug) hCheck
    · rcases hBreaks with hInfinite | hDeep | ⟨hDebug, hCheck⟩
      · cases hInfinite
      · cases hDeep
      · exact absurd (hTold _ (by decide) hDebug) hCheck
    · exact .inl hDeep
    · exact .inr (.inl ⟨negative, hStumbles⟩)
    · rcases hBreaks with hInfinite | hDeep | ⟨hDebug, hCheck⟩
      · cases hInfinite
      · cases hDeep
      · exact .inr (.inr ⟨hDebug, text, hStumbles, hCheck⟩)
  · rintro (hDeep | hInfinite | ⟨hDebug, text, hStumbles, hCheck⟩)
    · exact ⟨.tooDeep,
        Snapshot.ofArtifact_eq_tooDeep_iff.mpr hDeep,
        .inr (.inl rfl)⟩
    · exact ⟨.infiniteNumber,
        Snapshot.ofArtifact_eq_infinite_iff.mpr hInfinite,
        .inl rfl⟩
    · exact ⟨.notWhole text,
        Snapshot.ofArtifact_eq_notWhole_iff.mpr hStumbles,
        .inr (.inr ⟨hDebug, hCheck⟩)⟩

/- Brackets break every read, if there are enough of them. -/
theorem breaksOn_brackets
    {count : Nat}
    (hCount : s.room + 3 < count)
    (rest : String) :
    s.BreaksOn
      (String.ofList (List.replicate count '[') ++
        rest).toUTF8 := by
  refine ⟨.tooDeep, ?_, .inr (.inl rfl)⟩
  rw [Snapshot.ofArtifact_eq_tooDeep_iff]
  unfold Snapshot.dataIn
  rw [Snapshot.fromUTF8?_toUTF8]
  dsimp only
  rw [Json.parse_brackets hCount]

/- What breaks nothing and is no snapshot is as good as none. -/
theorem offersNothing_of_content
    {d : Disk}
    (hContent : d.read s.path = .ok content)
    (hHolds : ¬ s.BreaksOn content)
    (hNone :
      (Snapshot.ofArtifact content s.room).toOption = none) :
    s.OffersNothing d := by
  intro notices
  have hDesk : (⟨d, notices⟩ : Desk).disk.read s.path =
      .ok content :=
    hContent
  rcases read_of_content hDesk with
    ⟨hBreaks, -⟩ | ⟨-, more, hRead⟩
  · exact absurd hBreaks hHolds
  · rw [hNone] at hRead
    exact ⟨more, hRead⟩

end Store

end SymbolAtlas

------------------------------------------------------------
-- Disks to Save On
------------------------------------------------------------

namespace SymbolAtlas

namespace Store

/- No directory is where a file of the store should be. -/
structure IsReady (s : Store) (d : Disk) : Prop
    extends IsUsable s d where
  files : ∀ file ∈ s.files, d.isDirectory file = false

variable {s t : Store} {d : Disk} {place : Place}

theorem Alike.canTell_iff
    (hAlike : s.Alike t) :
    t.CanTell ↔ s.CanTell := by
  unfold CanTell
  rw [hAlike.isDebug, hAlike.path]

theorem Alike.isReady
    (hAlike : s.Alike t)
    (hReady : s.IsReady d) :
    t.IsReady d := by
  refine ⟨hAlike.isUsable hReady.toIsUsable, ?_⟩
  rw [hAlike.files_eq]
  exact hReady.files

variable (hKey : '/' ∉ s.key.toList)

include hKey

/- The directory is there if one of the files is. -/
theorem IsUsable.exists_clear
    {suffix : String}
    {found : Disk.Found}
    (hUsable : s.IsUsable d)
    (hSuffix : suffix ∈ suffixes)
    (hLocate : d.locate true (s.fileIn suffix) = .ok found) :
    ∃ place, s.Clear d place := by
  have hLinks := List.forall_mem_map.mp hUsable.links
  exact clear_of_locate hKey
    (Disk.grounded_startOf hUsable.cwd s.directory) hLinks
    hSuffix hLocate

theorem IsReady.hasRoom
    (hReady : s.IsReady d)
    (hClear : s.Clear d place) :
    s.HasRoom d place := by
  intro suffix hSuffix
  by_contra hTaken
  rcases hClear.dir_of_not_isFree hSuffix hTaken with
    ⟨mtime, hDir⟩
  have hLocate := hClear.locate_fileIn hKey hSuffix true
  rw [hDir] at hLocate
  have hIs : d.isDirectory (s.fileIn suffix) = true :=
    Disk.isDirectory_iff.mpr ⟨_, mtime, hLocate⟩
  rw [hReady.files _ (List.mem_map_of_mem hSuffix)] at hIs
  cases hIs

end Store

end SymbolAtlas
