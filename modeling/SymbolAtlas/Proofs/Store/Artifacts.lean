import SymbolAtlas.Proofs.Disk.Approach
import SymbolAtlas.Proofs.Work
import SymbolAtlas.Store.Basic
import SymbolAtlas.Store.Key

/-
  Artifacts are replaced as a whole.

  All files of a store are in one directory. A save writes the
  new artifact beside the old one and then puts it in its place,
  so whatever fails, the old one is still there. An artifact
  that can be read is taken as it is.

  Key definitions:
    * `Store.home`, the directory of a store
    * `Store.Holds`, a store that is in order
  Key theorems:
    * `Store.locate_fileIn`
    * `Store.holds_of_read`, `Store.Holds.read_eq`
    * `Store.save_cases`
    * `Store.seek_of_read`
-/

------------------------------------------------------------
-- The Directory of a Store
------------------------------------------------------------

namespace SymbolAtlas

namespace Disk

/- A link stands at the path. -/
def IsLink (d : Disk) (path : String) : Prop :=
  ∃ place target,
    d.locate false path = .ok ⟨place, some (.link target)⟩

instance
    (d : Disk)
    (path : String) :
    Decidable (d.IsLink path) :=
  match hLocated : d.locate false path with
  | .ok ⟨place, some (.link target)⟩ =>
      .isTrue ⟨place, target, hLocated⟩
  | .ok ⟨_, some (.file ..)⟩
  | .ok ⟨_, some (.dir ..)⟩
  | .ok ⟨_, none⟩
  | .error _ => .isFalse (by
      rintro ⟨place, target, hLink⟩
      rw [hLocated] at hLink
      cases hLink)

/- A long name is no dot, nor two, nor nothing. -/
theorem isPlain_of_length
    {name : String}
    (hLong : 2 < name.length) :
    IsPlain name := by
  refine ⟨?_, ?_⟩
  · unfold Route.isVoid
    rw [Bool.or_eq_false_iff]
    constructor
    · rw [Bool.eq_false_iff]
      intro hEmpty
      rw [String.isEmpty_iff.mp hEmpty] at hLong
      cases hLong
    · rw [beq_eq_false_iff_ne]
      rintro rfl
      revert hLong
      decide
  · rintro rfl
    revert hLong
    decide

end Disk

namespace Store

/- The place of the directory of a store. -/
def home (s : Store) (d : Disk) : Except Fault Place :=
  let base := Route.ofText s.directory
  d.reach Disk.linkLimit (if base.isRooted then [] else d.cwd)
    base.names

variable {s : Store} {d : Disk}

/- The route to a file of a store. -/
theorem route_fileIn
    {name : String}
    (hSlash : '/' ∉ name.toList)
    (hLong : 2 < name.length) :
    Route.ofText s.directory ++ Route.ofText name =
      ⟨(Route.ofText s.directory).root,
        (Route.ofText s.directory).names ++ [name]⟩ := by
  have hRooted : (Route.ofText name).isRooted = false := by
    rw [Route.isRooted_ofText]
    cases hRooted : Path.isRooted name with
    | false => rfl
    | true =>
        rcases Path.isRooted_iff.mp hRooted with ⟨rest, hRest⟩
        rw [hRest] at hSlash
        exact absurd List.mem_cons_self hSlash
  have hNames : (Route.ofText name).names = [name] := by
    change (Path.names name).filter (!Route.isVoid ·) = [name]
    rw [Path.names_of_not_mem hSlash]
    simp [(Disk.isPlain_of_length hLong).1]
  change Route.append _ _ = _
  unfold Route.append
  rw [hRooted, hNames]
  rfl

/- A suffix that makes the name of a file of any key. -/
def IsSuffix (suffix : String) : Prop :=
  '/' ∉ suffix.toList ∧ 2 < suffix.length

instance
    (suffix : String) :
    Decidable (IsSuffix suffix) :=
  inferInstanceAs (Decidable (_ ∧ _))

/- The files of a store are in its directory. -/
theorem locate_fileIn
    {suffix : String}
    {followLast : Bool}
    (hKey : '/' ∉ s.key.toList)
    (hSuffix : IsSuffix suffix)
    (hLink :
      followLast = true →
        ∀ place target, s.home d = .ok place →
          d.node? (place ++ [s.key ++ suffix]) ≠
            some (.link target)) :
    d.locate followLast (s.fileIn suffix) =
      (s.home d).map fun place =>
        ⟨place ++ [s.key ++ suffix],
          d.node? (place ++ [s.key ++ suffix])⟩ := by
  have hSlash : '/' ∉ (s.key ++ suffix).toList := by
    rw [String.toList_append, List.mem_append]
    exact not_or.mpr ⟨hKey, hSuffix.1⟩
  have hLong : 2 < (s.key ++ suffix).length := by
    rw [String.length_append]
    have hLength := hSuffix.2
    omega
  have hRead :
      (Route.ofText s.directory ++
        Route.ofText (s.key ++ suffix)).IsRead :=
    (Route.isRead_ofText _).append (Route.isRead_ofText _)
  unfold fileIn
  rw [Disk.locate_text hRead, route_fileIn hSlash hLong]
  exact Disk.follow_append_last (Disk.isPlain_of_length hLong) hLink

/- The directory is the same on disks with the same ways. -/
theorem home_of_sameWays
    {e : Disk}
    {place : Place}
    (hSame : d.SameWays e)
    (hCwd : d.Grounded d.cwd)
    (hHome : s.home d = .ok place) :
    s.home e = .ok place := by
  unfold home at hHome ⊢
  dsimp only at hHome ⊢
  rw [hSame.cwd]
  refine (Disk.reach_of_sameWays hSame ?_ hHome).1
  split
  · exact Disk.grounded_nil d
  · exact hCwd

end Store

end SymbolAtlas

------------------------------------------------------------
-- Stores in Order
------------------------------------------------------------

namespace SymbolAtlas

namespace Store

/-
  The artifact of the store is a file with the content, and the
  file that becomes the next one is no link.
-/
structure Holds
    (s : Store)
    (d : Disk)
    (place : Place)
    (content : ByteArray) : Prop where
  cwd : d.Grounded d.cwd
  home : s.home d = .ok place
  artifact :
    ∃ mtime,
      d.node? (place ++ [s.key ++ ".json"]) =
        some (.file content mtime)
  temp :
    ∀ target,
      d.node? (place ++ [s.key ++ ".json.tmp"]) ≠
        some (.link target)

variable {s : Store} {d e : Disk} {place : Place}
variable {content : ByteArray}

theorem Holds.of_sameWays
    {other : ByteArray}
    (hHolds : s.Holds d place content)
    (hSame : d.SameWays e)
    (hArtifact :
      ∃ mtime,
        e.node? (place ++ [s.key ++ ".json"]) =
          some (.file other mtime))
    (hTemp :
      ∀ target,
        e.node? (place ++ [s.key ++ ".json.tmp"]) ≠
          some (.link target)) :
    s.Holds e place other where
  cwd := by
    rw [hSame.cwd]
    exact hHolds.cwd.of_sameWays hSame
  home := home_of_sameWays hSame hHolds.cwd hHolds.home
  artifact := hArtifact
  temp := hTemp

theorem Holds.content_eq
    {other : ByteArray}
    (hHolds : s.Holds d place content)
    (hOther : s.Holds d place other) :
    content = other := by
  rcases hHolds.artifact with ⟨_, hContent⟩
  rcases hOther.artifact with ⟨_, hNode⟩
  rw [hContent] at hNode
  cases hNode
  rfl

variable (hKey : '/' ∉ s.key.toList)

include hKey

theorem Holds.locate_path
    (hHolds : s.Holds d place content)
    (followLast : Bool) :
    ∃ mtime,
      d.locate followLast s.path =
        .ok ⟨place ++ [s.key ++ ".json"],
          some (.file content mtime)⟩ := by
  rcases hHolds.artifact with ⟨mtime, hNode⟩
  refine ⟨mtime, ?_⟩
  unfold path
  rw [locate_fileIn hKey (by decide), hHolds.home, ← hNode]
  · rfl
  · intro hFollow other target hHome
    rw [hHolds.home] at hHome
    cases hHome
    rw [hNode]
    simp

theorem Holds.locate_tempPath
    (hHolds : s.Holds d place content)
    (followLast : Bool) :
    d.locate followLast s.tempPath =
      .ok ⟨place ++ [s.key ++ ".json.tmp"],
        d.node? (place ++ [s.key ++ ".json.tmp"])⟩ := by
  unfold tempPath
  rw [locate_fileIn hKey (by decide), hHolds.home]
  · rfl
  · intro hFollow other target hHome
    rw [hHolds.home] at hHome
    cases hHome
    exact hHolds.temp target

/- The artifact can be read. -/
theorem Holds.read_eq
    (hHolds : s.Holds d place content) :
    d.read s.path = .ok content := by
  rcases hHolds.locate_path hKey true with ⟨mtime, hLocate⟩
  unfold Disk.read
  rw [hLocate]

/-
  A store is in order if its artifact can be read and no link
  stands at its paths.
-/
theorem holds_of_read
    (hCwd : d.Grounded d.cwd)
    (hRead : d.read s.path = .ok content)
    (hPath : ¬ d.IsLink s.path)
    (hTemp : ¬ d.IsLink s.tempPath) :
    ∃ place, s.Holds d place content := by
  have hNoLink :
      ∀ suffix, IsSuffix suffix →
        ¬ d.IsLink (s.fileIn suffix) →
        ∀ place target, s.home d = .ok place →
          d.node? (place ++ [s.key ++ suffix]) ≠
            some (.link target) := by
    intro suffix hSuffix hNot place target hHome hNode
    apply hNot
    refine ⟨place ++ [s.key ++ suffix], target, ?_⟩
    rw [locate_fileIn hKey hSuffix (by simp), hHome, ← hNode]
    rfl
  have hArtifact := hNoLink ".json" (by decide) hPath
  unfold Disk.read path at hRead
  rw [locate_fileIn hKey (by decide) fun _ => hArtifact] at hRead
  cases hHome : s.home d with
  | error fault =>
      rw [hHome] at hRead
      cases hRead
  | ok place =>
      rw [hHome] at hRead
      simp only [Except.map] at hRead
      refine ⟨place, hCwd, hHome, ?_, ?_⟩
      · split at hRead
        · next found mtime hNode =>
            cases hRead
            exact ⟨mtime, hNode⟩
        · cases hRead
        · cases hRead
      · intro target
        exact hNoLink ".json.tmp" (by decide) hTemp place target
          hHome

end Store

end SymbolAtlas

------------------------------------------------------------
-- Saves
------------------------------------------------------------

namespace SymbolAtlas

/- A change that is refused leaves the desk alone. -/
theorem Desk.attempt_eq
    (edit : Disk → Except Fault Disk)
    (error : Fault → Error)
    (desk : Desk) :
    attempt edit error desk =
      match edit desk.disk with
      | .ok after => .ok () { desk with disk := after }
      | .error fault => .error (error fault) desk := by
  unfold attempt
  simp only [bind, EStateM.bind, Work.get_eq]
  cases edit desk.disk with
  | ok after => rfl
  | error fault => rfl

namespace Store

variable {s : Store} {d e : Disk} {place : Place}
variable {content : ByteArray}

theorem artifact_ne_temp
    (s : Store)
    (place : Place) :
    place ++ [s.key ++ ".json"] ≠
      place ++ [s.key ++ ".json.tmp"] := by
  intro hSame
  have hNames := List.append_cancel_left hSame
  simp only [List.cons.injEq, and_true] at hNames
  have hLength := congrArg String.length hNames
  rw [String.length_append, String.length_append] at hLength
  have hFive : ".json".length = 5 := by decide
  have hNine : ".json.tmp".length = 9 := by decide
  omega

/- Neither file of a store is below the other. -/
theorem temp_apart
    (s : Store)
    (place : Place) :
    Disk.Apart (place ++ [s.key ++ ".json.tmp"])
      (place ++ [s.key ++ ".json"]) := by
  have hNot :
      ∀ {first second : String}, first ≠ second →
        ¬ place ++ [first] <+: place ++ [second] := by
    intro first second hNe hPrefix
    rw [List.prefix_append_right_inj] at hPrefix
    rcases hPrefix with ⟨rest, hRest⟩
    simp only [List.cons_append, List.nil_append,
      List.cons.injEq] at hRest
    exact hNe hRest.1
  have hNames : s.key ++ ".json" ≠ s.key ++ ".json.tmp" :=
    fun hSame => artifact_ne_temp s place (by rw [hSame])
  exact ⟨hNot hNames.symm, hNot hNames⟩

/- A lock that is opened leaves the store in order. -/
theorem holds_openAppending
    {file : String}
    {mtime : Int}
    (hHolds : s.Holds d place content)
    (hOpen : d.openAppending file mtime = .ok e) :
    s.Holds e place content := by
  unfold Disk.openAppending at hOpen
  split at hOpen
  · cases hOpen
  · next found hLocate =>
      have hNode := Disk.node_of_locate hLocate
      split at hOpen
      · cases hOpen
      · cases hOpen
        exact hHolds
      · next hNone =>
          cases hOpen
          rw [hNone] at hNode
          have hStops :
              Disk.wayAt (d.node? found.place) = .stops := by
            rw [← hNode]
            rfl
          have hPlace := Disk.ne_nil_of_stops hStops
          apply hHolds.of_sameWays
            (Disk.sameWays_put hStops .empty mtime)
          · rcases hHolds.artifact with ⟨time, hArtifact⟩
            refine ⟨time, ?_⟩
            rw [Disk.node?_put hPlace, if_neg]
            · exact hArtifact
            · intro hSame
              rw [hSame, ← hNode] at hArtifact
              cases hArtifact
          · intro target
            rw [Disk.node?_put hPlace]
            split
            · simp
            · exact hHolds.temp target

/- What is written beside the artifact does not change it. -/
theorem holds_written
    (hHolds : s.Holds d place content)
    (hStops :
      Disk.wayAt (d.node? (place ++ [s.key ++ ".json.tmp"])) =
        .stops)
    (next : ByteArray)
    (mtime : Int) :
    s.Holds
      (d.put (place ++ [s.key ++ ".json.tmp"]) (.file next mtime))
      place content := by
  have hPlace := Disk.ne_nil_of_stops hStops
  apply hHolds.of_sameWays (Disk.sameWays_put hStops next mtime)
  · rw [Disk.node?_put hPlace, if_neg (artifact_ne_temp s place)]
    exact hHolds.artifact
  · rw [Disk.node?_put hPlace, if_pos rfl]
    simp

/- What was written is the artifact once it is in its place. -/
theorem holds_renamed
    {next : ByteArray}
    {mtime : Int}
    (hHolds : s.Holds d place content)
    (hTemp :
      d.node? (place ++ [s.key ++ ".json.tmp"]) =
        some (.file next mtime)) :
    s.Holds
      (d.moveTree (place ++ [s.key ++ ".json.tmp"])
        (place ++ [s.key ++ ".json"]))
      place next := by
  have hApart := temp_apart s place
  rcases hHolds.artifact with ⟨time, hArtifact⟩
  apply hHolds.of_sameWays
    (Disk.sameWays_moveTree hApart (by rw [hTemp]; rfl)
      (by rw [hArtifact]; rfl))
  · exact ⟨mtime, by rw [Disk.node?_moveTree_target hApart, hTemp]⟩
  · rw [Disk.node?_moveTree_source hApart]
    simp

variable (hKey : '/' ∉ s.key.toList)

include hKey

/- What was written can be put in the place of the artifact. -/
theorem rename_tempPath
    {next : ByteArray}
    {mtime : Int}
    (hHolds : s.Holds d place content)
    (hTemp :
      d.node? (place ++ [s.key ++ ".json.tmp"]) =
        some (.file next mtime)) :
    d.rename s.tempPath s.path =
      .ok (d.moveTree (place ++ [s.key ++ ".json.tmp"])
        (place ++ [s.key ++ ".json"])) := by
  rcases hHolds.locate_path hKey false with ⟨time, hPath⟩
  unfold Disk.rename
  rw [hHolds.locate_tempPath hKey, hPath, hTemp]
  dsimp only
  rw [if_neg (artifact_ne_temp s place).symm]

/-
  The artifact is replaced, unless a directory is where the new
  one should be written.
-/
theorem replace_cases
    (hHolds : s.Holds d place content)
    (next : ByteArray) :
    (∃ after,
      s.replace next d = (after, none) ∧
      s.Holds after place next) ∨
    ∃ failure mtime,
      s.replace next d = (d, some failure) ∧
      d.node? (place ++ [s.key ++ ".json.tmp"]) =
        some (.dir mtime) := by
  have hReplaced :
      Disk.wayAt (d.node? (place ++ [s.key ++ ".json.tmp"])) =
        .stops →
      d.write s.tempPath next Desk.ownTime =
        .ok (d.put (place ++ [s.key ++ ".json.tmp"])
          (.file next Desk.ownTime)) →
      ∃ after,
        s.replace next d = (after, none) ∧
        s.Holds after place next := by
    intro hStops hWrite
    have hWritten := holds_written hHolds hStops next Desk.ownTime
    have hTemp :
        (d.put (place ++ [s.key ++ ".json.tmp"])
          (.file next Desk.ownTime)).node?
            (place ++ [s.key ++ ".json.tmp"]) =
          some (.file next Desk.ownTime) := by
      rw [Disk.node?_put (Disk.ne_nil_of_stops hStops), if_pos rfl]
    refine ⟨_, ?_, holds_renamed hWritten hTemp⟩
    unfold replace
    rw [hWrite]
    dsimp only
    rw [rename_tempPath hKey hWritten hTemp]
  have hLocate := hHolds.locate_tempPath hKey true
  cases hNode : d.node? (place ++ [s.key ++ ".json.tmp"]) with
  | none =>
      left
      apply hReplaced (by rw [hNode]; rfl)
      unfold Disk.write
      rw [hLocate, hNode]
  | some node =>
      cases node with
      | link target => exact absurd hNode (hHolds.temp target)
      | file old mtime =>
          left
          apply hReplaced (by rw [hNode]; rfl)
          unfold Disk.write
          rw [hLocate, hNode]
      | dir mtime =>
          right
          refine ⟨⟨.isDirectory, s.tempPath, none⟩, mtime, ?_, rfl⟩
          unfold replace Disk.write
          rw [hLocate, hNode]

omit hKey in
theorem write_eq
    (s : Store)
    (k : Snapshot)
    (desk : Desk) :
    s.write k desk =
      if k.isWritable then
        match s.replace k.artifact.toUTF8 desk.disk with
        | (after, none) => .ok () { desk with disk := after }
        | (after, some failure) =>
            .error (.artifactNotWritten s.path failure)
              { desk with
                disk :=
                  (after.unlink s.tempPath).toOption.getD
                    after }
      else .error .longNumber desk := by
  unfold write
  generalize k.artifact.toUTF8 = next
  split
  · simp only [bind, EStateM.bind, Work.get_eq]
    rcases s.replace next desk.disk with
      ⟨after, failure | failure⟩
    · rfl
    · rfl
  · rfl

omit hKey in
/- Who writes can do so, and moves what stands beside it. -/
theorem exists_of_write_eq_ok
    {s : Store}
    {k : Snapshot}
    {desk final : Desk}
    (hWrite : s.write k desk = .ok () final) :
    ∃ written renamed,
      k.isWritable = true ∧
      desk.disk.write s.tempPath k.artifact.toUTF8
        Desk.ownTime = .ok written ∧
      written.rename s.tempPath s.path = .ok renamed ∧
      final = { desk with disk := renamed } := by
  rw [write_eq] at hWrite
  split at hWrite
  · next hWritable =>
      generalize k.artifact.toUTF8 = content at hWrite ⊢
      unfold replace at hWrite
      cases hTemp :
          desk.disk.write s.tempPath content Desk.ownTime with
      | error fault =>
          rw [hTemp] at hWrite
          cases hWrite
      | ok written =>
          rw [hTemp] at hWrite
          dsimp only at hWrite
          cases hRename : written.rename s.tempPath s.path with
          | error fault =>
              rw [hRename] at hWrite
              cases hWrite
          | ok renamed =>
              rw [hRename] at hWrite
              cases hWrite
              exact ⟨written, renamed, hWritable, rfl, hRename, rfl⟩
  · cases hWrite

/- An artifact is written, or the disk is as it was. -/
theorem write_cases
    {desk : Desk}
    (hHolds : s.Holds desk.disk place content)
    (k : Snapshot) :
    (∃ final,
      s.write k desk = .ok () final ∧
      s.Holds final.disk place k.artifact.toUTF8) ∨
    ∃ error,
      s.write k desk = .error error desk := by
  rw [write_eq]
  generalize k.artifact.toUTF8 = next
  split
  · rcases replace_cases hKey hHolds next with
      ⟨after, hReplace, hAfter⟩ | ⟨failure, mtime, hReplace, hDir⟩
    · left
      rw [hReplace]
      exact ⟨{ desk with disk := after }, rfl, hAfter⟩
    · right
      have hUnlink :
          desk.disk.unlink s.tempPath = .error .isDirectory := by
        unfold Disk.unlink
        rw [hHolds.locate_tempPath hKey, hDir]
      rw [hReplace]
      dsimp only
      rw [hUnlink]
      exact ⟨.artifactNotWritten s.path failure, rfl⟩
  · exact Or.inr ⟨.longNumber, rfl⟩

omit hKey in
/- The lock that a store asks for is its own one. -/
theorem path_ownLock
    (s : Store) :
    Lock.path ⟨s.lockPath, false, none⟩ = s.lockPath := by
  dsimp only

omit hKey in
/- A lock is opened, or the disk is as it was. -/
theorem acquire_cases
    (file : String)
    (mode : LockMode)
    (desk : Desk) :
    (∃ lock after,
      Lock.acquire ⟨file, false, none⟩ mode Others.absent desk =
        .ok lock { desk with disk := after } ∧
      desk.disk.openAppending file Desk.ownTime = .ok after) ∨
    ∃ error,
      Lock.acquire ⟨file, false, none⟩ mode Others.absent desk =
        .error error desk := by
  unfold Lock.acquire Lock.opened
  simp only [bind, EStateM.bind, Bool.false_eq_true, if_false,
    Desk.attempt_eq]
  cases hOpen : desk.disk.openAppending file Desk.ownTime with
  | ok after => exact Or.inl ⟨_, after, rfl, rfl⟩
  | error fault => exact Or.inr ⟨_, rfl⟩

/- A save replaces the artifact, or fails and leaves it alone. -/
theorem save_cases
    {desk : Desk}
    (hHolds : s.Holds desk.disk place content)
    (k : Snapshot) :
    (∃ final,
      s.save k desk = .ok () final ∧
      s.Holds final.disk place k.artifact.toUTF8) ∨
    ∃ error final,
      s.save k desk = .error error final ∧
      s.Holds final.disk place content := by
  unfold save
  rcases acquire_cases s.lockPath .exclusive desk with
    ⟨lock, after, hAcquire, hOpen⟩ | ⟨error, hAcquire⟩
  · rw [Work.bind_of_ok hAcquire]
    have hAfter :
        s.Holds ({ desk with disk := after } : Desk).disk place
          content :=
      holds_openAppending hHolds hOpen
    rcases write_cases hKey hAfter k with
      ⟨final, hWrite, hFinal⟩ | ⟨error, hWrite⟩
    · exact Or.inl ⟨final, hWrite, hFinal⟩
    · exact Or.inr ⟨error, _, hWrite, hAfter⟩
  · rw [Work.bind_of_error hAcquire]
    exact Or.inr ⟨error, desk, rfl, hHolds⟩

end Store

end SymbolAtlas

------------------------------------------------------------
-- Loading
------------------------------------------------------------

namespace SymbolAtlas

namespace Store

/- An artifact that can be used is what is read. -/
theorem read_of_ofArtifact
    {s : Store}
    {desk : Desk}
    {content : ByteArray}
    {k : Snapshot}
    (hRead : desk.disk.read s.path = .ok content)
    (hSnapshot : Snapshot.ofArtifact content s.room = .ok k) :
    s.read desk = .ok (some k) desk := by
  unfold read
  simp only [bind, EStateM.bind, Work.get_eq, hRead, hSnapshot]
  rfl

/- Two errors of an artifact end the read. -/
theorem read_of_fatal
    {s : Store}
    {desk : Desk}
    {content : ByteArray}
    {error : Error}
    (hRead : desk.disk.read s.path = .ok content)
    (hSnapshot :
      Snapshot.ofArtifact content s.room = .error error)
    (hFatal : error = .infiniteNumber ∨ error = .tooDeep) :
    s.read desk = .error error desk := by
  unfold read
  rw [Work.bind_of_ok (Work.get_eq _), hRead]
  dsimp only
  rw [hSnapshot]
  rcases hFatal with rfl | rfl
  · rfl
  · rfl

/- All others make the artifact as good as none. -/
theorem read_of_unusable
    {s : Store}
    {desk : Desk}
    {content : ByteArray}
    {error : Error}
    (hRead : desk.disk.read s.path = .ok content)
    (hSnapshot :
      Snapshot.ofArtifact content s.room = .error error)
    (hHarmless : ¬ (error = .infiniteNumber ∨ error = .tooDeep)) :
    s.read desk = s.discard error.reason desk := by
  obtain ⟨hInfinite, hDeep⟩ := not_or.mp hHarmless
  unfold read
  rw [Work.bind_of_ok (Work.get_eq _), hRead]
  dsimp only
  rw [hSnapshot]
  simp only

/- An artifact that can be read is what a store has. -/
theorem seek_of_read
    {s : Store}
    {desk : Desk}
    {content : ByteArray}
    {k : Snapshot}
    (hRead : desk.disk.read s.path = .ok content)
    (hSnapshot : Snapshot.ofArtifact content s.room = .ok k)
    (others : Others) :
    (∃ notices,
      s.seek others desk =
        .ok (.inl k) { desk with notices := notices }) ∨
    ∃ error, s.seek others desk = .error error desk := by
  unfold seek
  rw [Work.bind_of_ok (read_of_ofArtifact hRead hSnapshot)]
  dsimp only
  unfold debug
  split
  · cases hCheck : (Notice.cacheHit s.path).check with
    | ok value =>
        left
        refine ⟨desk.notices ++ [.cacheHit s.path], ?_⟩
        simp only [bind, EStateM.bind, Desk.tell, Desk.liftError,
          hCheck]
        rfl
    | error error =>
        right
        refine ⟨error, ?_⟩
        simp only [bind, EStateM.bind, Desk.tell, Desk.liftError,
          hCheck]
        rfl
  · exact Or.inl ⟨desk.notices, rfl⟩

end Store

namespace Key

theorem not_mem_hexOctet
    (octet : UInt8) :
    '/' ∉ Md5.hexOctet octet := by
  have hDigits :
      ∀ n < 16,
        (if n < 10 then Char.ofNat (48 + n)
          else Char.ofNat (87 + n)) ≠ '/' := by
    decide
  have hSize : octet.toNat < 256 := octet.toNat_lt
  unfold Md5.hexOctet
  dsimp only
  rw [List.mem_cons, List.mem_singleton, not_or]
  exact ⟨(hDigits _ (by omega)).symm, (hDigits _ (by omega)).symm⟩

/- A key is one name. -/
theorem not_mem_ofSettings
    {settings : Settings}
    {d : Disk}
    {key : String}
    (hKey : ofSettings settings d = .ok key) :
    '/' ∉ key.toList := by
  unfold ofSettings at hKey
  cases hPayload : payload settings d with
  | error error =>
      rw [hPayload] at hKey
      cases hKey
  | ok datum =>
      rw [hPayload] at hKey
      cases hKey
      unfold Md5.hex
      rw [String.toList_ofList, List.mem_flatMap]
      rintro ⟨octet, -, hSlash⟩
      exact not_mem_hexOctet octet hSlash

end Key

end SymbolAtlas
