import SymbolAtlas.Proofs.Disk.RealPaths
import SymbolAtlas.Proofs.Store.Artifacts
import SymbolAtlas.Proofs.Store.Lossless

/-
  Saves that succeed.

  A store has three files in its directory. Nothing else on the
  disk is touched by a save, and no way on the disk changes. What
  was saved is read back, whatever stood there before, and two
  saves leave the same bytes exactly if they save the same.

  Key definitions:
    * `Store.Clear`, a store without links among its files
    * `Store.Refiled`, a disk with other files of the store
    * `Store.Saved`
  Key theorems:
    * `Store.Clear.saved_of_save`
    * `Store.Saved.read_eq`
    * `Store.exists_plain`, `Store.exists_alike`
    * `Store.Saves.lossless`
-/

------------------------------------------------------------
-- The Files of a Store
------------------------------------------------------------

namespace SymbolAtlas

namespace Store

/- How the names of the files of a store end. -/
def suffixes : List String :=
  [".json", ".json.lock", ".json.tmp"]

theorem isSuffix_of_mem :
    ∀ suffix ∈ suffixes, IsSuffix suffix := by
  decide

/-
  The directory of the store is at the place, and no link stands
  there for one of its files.
-/
structure Clear
    (s : Store)
    (d : Disk)
    (place : Place) : Prop where
  directory : d.HasDirectory s.directory place
  files :
    ∀ suffix ∈ suffixes, ∀ target,
      d.node? (place ++ [s.key ++ suffix]) ≠ some (.link target)

/- The disks are the same but for the files of the store. -/
structure Refiled
    (s : Store)
    (place : Place)
    (d e : Disk) : Prop where
  ways : d.SameWays e
  nodes :
    ∀ other,
      (∀ suffix ∈ suffixes,
        ¬ place ++ [s.key ++ suffix] <+: other) →
      e.node? other = d.node? other
  links : d.IsTree → e.IsTree ∧ d.SameLinks e
  home : e.home = d.home
  denied : e.denied = d.denied
  listing : e.listing = d.listing

/- The artifact is a file with the content. -/
def HasArtifact
    (s : Store)
    (d : Disk)
    (place : Place)
    (content : ByteArray) : Prop :=
  ∃ mtime,
    d.node? (place ++ [s.key ++ ".json"]) =
      some (.file content mtime)

variable {s : Store} {d e f : Disk} {place : Place}
variable {content : ByteArray} {suffix : String}

theorem Refiled.refl
    (s : Store)
    (place : Place)
    (d : Disk) :
    s.Refiled place d d :=
  ⟨.refl d, fun _ _ => rfl, fun hTree => ⟨hTree, .refl d⟩, rfl,
    rfl, rfl⟩

theorem Refiled.trans
    (hFirst : s.Refiled place d e)
    (hSecond : s.Refiled place e f) :
    s.Refiled place d f where
  ways := hFirst.ways.trans hSecond.ways
  nodes other hOther :=
    (hSecond.nodes other hOther).trans (hFirst.nodes other hOther)
  links hTree := by
    rcases hFirst.links hTree with ⟨hMiddle, hLinks⟩
    rcases hSecond.links hMiddle with ⟨hLast, hMore⟩
    exact ⟨hLast, hLinks.trans hMore⟩
  home := hSecond.home.trans hFirst.home
  denied := hSecond.denied.trans hFirst.denied
  listing := hSecond.listing.trans hFirst.listing

/- No link comes up where all ways stay the same. -/
theorem Clear.of_sameWays
    (hClear : s.Clear d place)
    (hSame : d.SameWays e) :
    s.Clear e place where
  directory := hClear.directory.of_sameWays hSame
  files suffix hSuffix target hNode := by
    have hWay :=
      hSame.ways place (s.key ++ suffix)
        hClear.directory.grounded
    rw [hNode] at hWay
    cases hOld : d.node? (place ++ [s.key ++ suffix]) with
    | none =>
        rw [hOld] at hWay
        cases hWay
    | some node =>
        rw [hOld] at hWay
        cases node with
        | file content mtime => cases hWay
        | dir mtime => cases hWay
        | link other =>
            exact hClear.files suffix hSuffix other hOld

theorem Clear.of_refiled
    (hClear : s.Clear d place)
    (hRefiled : s.Refiled place d e) :
    s.Clear e place :=
  hClear.of_sameWays hRefiled.ways

theorem Clear.descends
    (hClear : s.Clear d place) :
    Disk.wayAt (d.node? place) = .descends :=
  hClear.directory.grounded place List.prefix_rfl

theorem Clear.refiled_put
    (hClear : s.Clear d place)
    (hSuffix : suffix ∈ suffixes)
    (hStops :
      Disk.wayAt (d.node? (place ++ [s.key ++ suffix])) = .stops)
    (content : ByteArray)
    (mtime : Int) :
    s.Refiled place d
      (d.put (place ++ [s.key ++ suffix])
        (.file content mtime)) where
  ways := Disk.sameWays_put hStops content mtime
  nodes other hOther := by
    rw [Disk.node?_put (Disk.ne_nil_of_stops hStops), if_neg]
    rintro rfl
    exact hOther suffix hSuffix List.prefix_rfl
  links hTree :=
    ⟨hTree.put hClear.descends hStops content mtime,
      Disk.sameLinks_put hTree hStops content mtime⟩
  home := rfl
  denied := rfl
  listing := rfl

theorem Clear.refiled_moveTree
    (hClear : s.Clear d place)
    (hTemp :
      Disk.wayAt (d.node? (place ++ [s.key ++ ".json.tmp"])) =
        .stops)
    (hArtifact :
      Disk.wayAt (d.node? (place ++ [s.key ++ ".json"])) =
        .stops) :
    s.Refiled place d
      (d.moveTree (place ++ [s.key ++ ".json.tmp"])
        (place ++ [s.key ++ ".json"])) where
  ways :=
    Disk.sameWays_moveTree (temp_apart s place) hTemp hArtifact
  nodes other hOther :=
    Disk.node?_moveTree_of_apart
      (hOther ".json.tmp" (by decide))
      (hOther ".json" (by decide))
  links hTree :=
    ⟨hTree.moveTree hClear.descends (temp_apart s place) hTemp,
      Disk.sameLinks_moveTree hTree (temp_apart s place) hTemp
        hArtifact⟩
  home := rfl
  denied := rfl
  listing := rfl

end Store

end SymbolAtlas

------------------------------------------------------------
-- Single Steps
------------------------------------------------------------

namespace SymbolAtlas

namespace Store

variable {s : Store} {d e : Disk} {place : Place}
variable {content : ByteArray} {suffix : String} {mtime : Int}
variable (hKey : '/' ∉ s.key.toList)

include hKey

/- A store finds its files in its directory. -/
theorem Clear.locate_fileIn
    (hClear : s.Clear d place)
    (hSuffix : suffix ∈ suffixes)
    (followLast : Bool) :
    d.locate followLast (s.fileIn suffix) =
      .ok ⟨place ++ [s.key ++ suffix],
        d.node? (place ++ [s.key ++ suffix])⟩ := by
  have hHome : s.home d = .ok place := hClear.directory.reached
  rw [Store.locate_fileIn hKey (isSuffix_of_mem suffix hSuffix),
    hHome]
  · rfl
  · intro _ other target hOther
    rw [hHome] at hOther
    cases hOther
    exact hClear.files suffix hSuffix target

/- The directory was found if one of the files was looked for. -/
theorem clear_of_locate
    {found : Disk.Found}
    (hStart : d.Grounded (d.startOf s.directory))
    (hLinks :
      ∀ suffix ∈ suffixes, ¬ d.IsLink (s.fileIn suffix))
    (hSuffix : suffix ∈ suffixes)
    (hLocate : d.locate true (s.fileIn suffix) = .ok found) :
    ∃ place, s.Clear d place := by
  have hFiles :
      ∀ suffix ∈ suffixes, ∀ place target,
        s.home d = .ok place →
        d.node? (place ++ [s.key ++ suffix]) ≠
          some (.link target) := by
    intro suffix hSuffix place target hHome hNode
    apply hLinks suffix hSuffix
    refine ⟨place ++ [s.key ++ suffix], target, ?_⟩
    rw [Store.locate_fileIn hKey
      (isSuffix_of_mem suffix hSuffix) (by simp), hHome, ← hNode]
    rfl
  rw [Store.locate_fileIn hKey (isSuffix_of_mem suffix hSuffix)
    fun _ => hFiles suffix hSuffix] at hLocate
  cases hHome : s.home d with
  | error fault =>
      rw [hHome] at hLocate
      cases hLocate
  | ok place =>
      refine ⟨place, ⟨hStart, hHome⟩, ?_⟩
      intro suffix hSuffix target
      exact hFiles suffix hSuffix place target hHome

/- It was found if the lock could be opened. -/
theorem clear_of_openAppending
    (hStart : d.Grounded (d.startOf s.directory))
    (hLinks :
      ∀ suffix ∈ suffixes, ¬ d.IsLink (s.fileIn suffix))
    (hOpen : d.openAppending s.lockPath mtime = .ok e) :
    ∃ place, s.Clear d place := by
  unfold Disk.openAppending at hOpen
  cases hLocate : d.locate true s.lockPath with
  | error fault =>
      rw [hLocate] at hOpen
      cases hOpen
  | ok found =>
      exact clear_of_locate hKey hStart hLinks (by decide) hLocate

/- Opening the lock makes its file or changes nothing. -/
theorem Clear.openAppending
    (hClear : s.Clear d place)
    (hOpen : d.openAppending s.lockPath mtime = .ok e) :
    s.Refiled place d e := by
  have hLock : ".json.lock" ∈ suffixes := by decide
  unfold Disk.openAppending lockPath at hOpen
  rw [hClear.locate_fileIn hKey hLock] at hOpen
  cases hNode : d.node? (place ++ [s.key ++ ".json.lock"]) with
  | none =>
      rw [hNode] at hOpen
      cases hOpen
      exact hClear.refiled_put hLock (by rw [hNode]; rfl) _ _
  | some node =>
      rw [hNode] at hOpen
      cases node with
      | dir time => cases hOpen
      | file old time =>
          cases hOpen
          exact .refl s place d
      | link target =>
          exact absurd hNode
            (hClear.files ".json.lock" hLock target)

/- The artifact is as it was after the lock was opened. -/
theorem Clear.node?_openAppending
    (hClear : s.Clear d place)
    (hOpen : d.openAppending s.lockPath mtime = .ok e) :
    e.node? (place ++ [s.key ++ ".json"]) =
      d.node? (place ++ [s.key ++ ".json"]) := by
  have hNe :
      place ++ [s.key ++ ".json"] ≠
        place ++ [s.key ++ ".json.lock"] := by
    intro hSame
    have hNames := List.append_cancel_left hSame
    simp only [List.cons.injEq, and_true] at hNames
    have hLength := congrArg String.length hNames
    rw [String.length_append, String.length_append] at hLength
    have hFive : ".json".length = 5 := by decide
    have hTen : ".json.lock".length = 10 := by decide
    omega
  unfold Disk.openAppending lockPath at hOpen
  rw [hClear.locate_fileIn hKey (by decide)] at hOpen
  dsimp only at hOpen
  split at hOpen
  · cases hOpen
  · cases hOpen
    rfl
  · cases hOpen
    rw [Disk.node?_put (by simp), if_neg hNe]

/- What is written before the artifact is replaced. -/
theorem Clear.write_tempPath
    (hClear : s.Clear d place)
    (hWrite : d.write s.tempPath content mtime = .ok e) :
    s.Refiled place d e ∧
    e.node? (place ++ [s.key ++ ".json.tmp"]) =
      some (.file content mtime) := by
  have hTemp : ".json.tmp" ∈ suffixes := by decide
  have hPut :
      Disk.wayAt (d.node? (place ++ [s.key ++ ".json.tmp"])) =
        .stops →
      e = d.put (place ++ [s.key ++ ".json.tmp"])
        (.file content mtime) →
      s.Refiled place d e ∧
      e.node? (place ++ [s.key ++ ".json.tmp"]) =
        some (.file content mtime) := by
    rintro hStops rfl
    refine ⟨hClear.refiled_put hTemp hStops _ _, ?_⟩
    rw [Disk.node?_put (Disk.ne_nil_of_stops hStops), if_pos rfl]
  unfold Disk.write tempPath at hWrite
  rw [hClear.locate_fileIn hKey hTemp] at hWrite
  cases hNode : d.node? (place ++ [s.key ++ ".json.tmp"]) with
  | none =>
      rw [hNode] at hWrite hPut
      cases hWrite
      exact hPut rfl rfl
  | some node =>
      rw [hNode] at hWrite hPut
      cases node with
      | dir time => cases hWrite
      | file old time =>
          cases hWrite
          exact hPut rfl rfl
      | link target =>
          exact absurd hNode
            (hClear.files ".json.tmp" hTemp target)

/- What was written is the artifact after the renaming. -/
theorem Clear.rename_tempPath
    (hClear : s.Clear d place)
    (hTemp :
      d.node? (place ++ [s.key ++ ".json.tmp"]) =
        some (.file content mtime))
    (hRename : d.rename s.tempPath s.path = .ok e) :
    s.Refiled place d e ∧ s.HasArtifact e place content := by
  have hPath : ".json" ∈ suffixes := by decide
  have hMoved :
      Disk.wayAt (d.node? (place ++ [s.key ++ ".json"])) =
        .stops →
      e = d.moveTree (place ++ [s.key ++ ".json.tmp"])
        (place ++ [s.key ++ ".json"]) →
      s.Refiled place d e ∧ s.HasArtifact e place content := by
    rintro hStops rfl
    refine ⟨hClear.refiled_moveTree (by rw [hTemp]; rfl) hStops,
      mtime, ?_⟩
    rw [Disk.node?_moveTree_target (temp_apart s place), hTemp]
  unfold Disk.rename tempPath path at hRename
  rw [hClear.locate_fileIn hKey (by decide),
    hClear.locate_fileIn hKey hPath, hTemp] at hRename
  cases hNode : d.node? (place ++ [s.key ++ ".json"]) with
  | none =>
      rw [hNode] at hRename hMoved
      dsimp only at hRename
      rw [if_neg (artifact_ne_temp s place).symm] at hRename
      cases hRename
      exact hMoved rfl rfl
  | some node =>
      rw [hNode] at hRename hMoved
      cases node with
      | dir time => cases hRename
      | file old time =>
          dsimp only at hRename
          rw [if_neg (artifact_ne_temp s place).symm] at hRename
          cases hRename
          exact hMoved rfl rfl
      | link target =>
          exact absurd hNode (hClear.files ".json" hPath target)

/- The artifact of the store can be read. -/
theorem Clear.read_path
    (hClear : s.Clear d place)
    (hArtifact : s.HasArtifact d place content) :
    d.read s.path = .ok content := by
  rcases hArtifact with ⟨mtime, hNode⟩
  unfold Disk.read path
  rw [hClear.locate_fileIn hKey (by decide), hNode]

end Store

end SymbolAtlas

------------------------------------------------------------
-- Whole Saves
------------------------------------------------------------

namespace SymbolAtlas

namespace Store

/- The snapshot is in the artifact, and no other file changed. -/
structure Saved
    (s : Store)
    (place : Place)
    (k : Snapshot)
    (d e : Disk) : Prop where
  writable : k.isWritable = true
  refiled : s.Refiled place d e
  artifact : s.HasArtifact e place k.artifact.toUTF8

variable {s : Store} {place : Place} {k : Snapshot}
variable {desk final : Desk}
variable (hKey : '/' ∉ s.key.toList)

include hKey

theorem Clear.saved_of_write
    (hClear : s.Clear desk.disk place)
    (hWrite : s.write k desk = .ok () final) :
    s.Saved place k desk.disk final.disk := by
  rcases exists_of_write_eq_ok hWrite with
    ⟨written, renamed, hWritable, hTemp, hRename, rfl⟩
  rcases hClear.write_tempPath hKey hTemp with ⟨hWritten, hNode⟩
  rcases (hClear.of_refiled hWritten).rename_tempPath hKey hNode
      hRename with
    ⟨hRenamed, hArtifact⟩
  exact ⟨hWritable, hWritten.trans hRenamed, hArtifact⟩

theorem Clear.saved_of_save
    (hClear : s.Clear desk.disk place)
    (hSave : s.save k desk = .ok () final) :
    s.Saved place k desk.disk final.disk := by
  unfold save at hSave
  rcases acquire_cases s.lockPath .exclusive desk with
    ⟨lock, after, hAcquire, hOpen⟩ | ⟨error, hAcquire⟩
  · rw [Work.bind_of_ok hAcquire] at hSave
    have hLocked := hClear.openAppending hKey hOpen
    have hWrite :
        s.Clear { desk with disk := after }.disk place :=
      hClear.of_refiled hLocked
    have hSaved := hWrite.saved_of_write hKey hSave
    exact ⟨hSaved.writable, hLocked.trans hSaved.refiled,
      hSaved.artifact⟩
  · rw [Work.bind_of_error hAcquire] at hSave
    cases hSave

theorem Clear.saved_of_saveWith
    {lock : Lock}
    (hClear : s.Clear desk.disk place)
    (hSave : s.saveWith lock k desk = .ok () final) :
    s.Saved place k desk.disk final.disk := by
  unfold saveWith at hSave
  split at hSave
  · exact hClear.saved_of_write hKey hSave
  · exact hClear.saved_of_save hKey hSave

/- What was saved is read. -/
theorem Saved.read_eq
    {d : Disk}
    (hClear : s.Clear d place)
    (hSaved : s.Saved place k d desk.disk) :
    s.read desk = .ok (some k.arranged) desk :=
  read_of_ofArtifact
    ((hClear.of_refiled hSaved.refiled).read_path hKey
      hSaved.artifact)
    (Snapshot.ofArtifact_artifact hSaved.writable s.room)

end Store

end SymbolAtlas

------------------------------------------------------------
-- Keys with Slashes
------------------------------------------------------------

namespace SymbolAtlas

/- A text with a slash is cut at its last one. -/
theorem Path.exists_last_slash
    {text : String}
    (hSlash : '/' ∈ text.toList) :
    ∃ front name,
      text = front ++ "/" ++ name ∧ '/' ∉ name.toList := by
  rcases List.eq_append_cons_of_mem
      (List.mem_reverse.mpr hSlash) with
    ⟨last, front, hSplit, hLast⟩
  have hChars := congrArg List.reverse hSplit
  simp only [List.reverse_reverse, List.reverse_append,
    List.reverse_cons, List.append_assoc,
    List.singleton_append] at hChars
  refine ⟨String.ofList front.reverse,
    String.ofList last.reverse, ?_, ?_⟩
  · apply String.toList_injective
    simp [hChars]
  · simpa using hLast

namespace Route

theorem append_assoc
    (first second third : Route) :
    first ++ second ++ third = first ++ (second ++ third) := by
  change append (append first second) third =
    append first (append second third)
  unfold append
  cases hThird : third.isRooted with
  | true => simp [hThird]
  | false =>
      cases hSecond : second.isRooted with
      | true =>
          have hRooted : (⟨second.root, second.names ++
              third.names⟩ : Route).isRooted = true := hSecond
          simp [hRooted]
      | false =>
          have hRooted : (⟨second.root, second.names ++
              third.names⟩ : Route).isRooted = false := hSecond
          simp [hRooted]

/- A name behind the last slash does not decide on the root. -/
theorem rootOf_append_slash
    (front : List Char)
    {name : List Char}
    (hName : '/' ∉ name) :
    rootOf (front ++ '/' :: name) = rootOf (front ++ ['/']) := by
  have hHead : name.head? ≠ some '/' := by
    intro hSlash
    exact hName (List.mem_of_mem_head? hSlash)
  have hSingle : rootOf (['/'] ++ name) = "/" :=
    rootOf_append (Or.inl rfl) hHead
  have hDouble : rootOf (['/', '/'] ++ name) = "//" :=
    rootOf_append (Or.inr rfl) hHead
  rcases front with _ | ⟨a, _ | ⟨b, _ | ⟨c, rest⟩⟩⟩
  · exact hSingle
  · by_cases hFirst : a = '/'
    · subst hFirst
      exact hDouble
    · simp [rootOf, hFirst]
  · by_cases hFirst : a = '/'
    · subst hFirst
      by_cases hSecond : b = '/'
      · subst hSecond
        rfl
      · simp [rootOf, hSecond]
    · simp [rootOf, hFirst]
  · by_cases hFirst : a = '/'
    · subst hFirst
      by_cases hSecond : b = '/'
      · subst hSecond
        by_cases hThird : c = '/'
        · subst hThird
          rfl
        · simp [rootOf, hThird]
      · simp [rootOf, hSecond]
    · simp [rootOf, hFirst]

/- A path is the path up to its last slash and a name. -/
theorem ofText_append_slash
    (front : String)
    {name : String}
    (hSlash : '/' ∉ name.toList)
    (hLong : 2 < name.length) :
    ofText (front ++ "/" ++ name) =
      ofText (front ++ "/") ++ ofText name := by
  have hFront :
      ofText (front ++ "/") =
        ⟨rootOf (front ++ "/").toList, (ofText front).names⟩ := by
    have hNames := Path.names_append_slash front ""
    have hNothing : Path.names "" = [""] :=
      Path.names_of_not_mem (by simp)
    rw [String.append_empty, hNothing] at hNames
    unfold ofText
    rw [hNames, List.filter_append]
    simp [isVoid]
  have hWhole :
      ofText (front ++ "/" ++ name) =
        ⟨rootOf (front ++ "/").toList,
          (ofText front).names ++ [name]⟩ := by
    have hRoot :
        rootOf (front ++ "/" ++ name).toList =
          rootOf (front ++ "/").toList := by
      simpa using rootOf_append_slash front.toList hSlash
    unfold ofText
    rw [hRoot, Path.names_append_slash, List.filter_append,
      Path.names_of_not_mem hSlash]
    simp [(Disk.isPlain_of_length hLong).1]
  have hName := Store.route_fileIn
    (s := { directory := front ++ "/", key := "" }) hSlash hLong
  rw [hWhole, hName, hFront]

end Route

namespace Store

/-
  Every store is one whose key is a single name: what stands
  before the last slash of a key belongs to the directory.
-/
theorem exists_plain
    (s : Store) :
    ∃ t : Store,
      '/' ∉ t.key.toList ∧
      t.isDebug = s.isDebug ∧ t.room = s.room ∧
      ∀ suffix, IsSuffix suffix →
        t.fileIn suffix = s.fileIn suffix := by
  by_cases hKey : '/' ∈ s.key.toList
  · rcases Path.exists_last_slash hKey with
      ⟨front, name, hText, hPlain⟩
    have hRead :
        (Route.ofText s.directory ++
          Route.ofText (front ++ "/")).IsRead :=
      (Route.isRead_ofText _).append (Route.isRead_ofText _)
    refine ⟨⟨(Route.ofText s.directory ++
      Route.ofText (front ++ "/")).text, name, s.isDebug, s.room⟩,
      hPlain, rfl, rfl, ?_⟩
    intro suffix hSuffix
    have hSlash : '/' ∉ (name ++ suffix).toList := by
      rw [String.toList_append, List.mem_append]
      exact not_or.mpr ⟨hPlain, hSuffix.1⟩
    have hLong : 2 < (name ++ suffix).length := by
      have hLength := hSuffix.2
      rw [String.length_append]
      omega
    have hWhole :
        s.key ++ suffix = front ++ "/" ++ (name ++ suffix) := by
      rw [hText, String.append_assoc]
    unfold fileIn
    dsimp only
    rw [hRead.ofText_text, Route.append_assoc, hWhole,
      Route.ofText_append_slash front hSlash hLong]
  · exact ⟨s, hKey, rfl, rfl, fun _ _ => rfl⟩

/- Stores with the same files that tell and read the same. -/
structure Alike (s t : Store) : Prop where
  isDebug : t.isDebug = s.isDebug
  room : t.room = s.room
  path : t.path = s.path
  lockPath : t.lockPath = s.lockPath
  tempPath : t.tempPath = s.tempPath

theorem exists_alike
    (s : Store) :
    ∃ t : Store, '/' ∉ t.key.toList ∧ s.Alike t := by
  rcases s.exists_plain with ⟨t, hKey, hDebug, hRoom, hFiles⟩
  exact ⟨t, hKey, hDebug, hRoom, hFiles ".json" (by decide),
    hFiles ".json.lock" (by decide),
    hFiles ".json.tmp" (by decide)⟩

variable {s t : Store}

theorem Alike.fileIn_eq
    (hAlike : s.Alike t) :
    ∀ suffix ∈ suffixes, t.fileIn suffix = s.fileIn suffix := by
  simp only [suffixes, List.forall_mem_cons]
  exact ⟨hAlike.path, hAlike.lockPath, hAlike.tempPath, by simp⟩

theorem Alike.write_eq
    (hAlike : s.Alike t) :
    t.write = s.write := by
  unfold write replace
  rw [hAlike.path, hAlike.tempPath]

theorem Alike.save_eq
    (hAlike : s.Alike t) :
    t.save = s.save := by
  unfold save
  rw [hAlike.lockPath, hAlike.write_eq]

theorem Alike.debug_eq
    (hAlike : s.Alike t) :
    t.debug = s.debug := by
  unfold debug
  rw [hAlike.isDebug]

theorem Alike.read_eq
    (hAlike : s.Alike t) :
    t.read = s.read := by
  unfold read discard
  rw [hAlike.path, hAlike.debug_eq, hAlike.room]

theorem Alike.seek_eq
    (hAlike : s.Alike t) :
    t.seek = s.seek := by
  unfold seek
  rw [hAlike.read_eq, hAlike.debug_eq, hAlike.path,
    hAlike.lockPath]

/- What a load does depends on the files of the store. -/
theorem Alike.load_eq
    {σ : Type}
    (hAlike : s.Alike t)
    (onDesk : {β : Type} → Desk.Work β → EStateM Error σ β)
    (build : EStateM Error σ Snapshot) :
    t.load Others.absent onDesk build =
      s.load Others.absent onDesk build := by
  have hSave : t.saveWith = s.saveWith := by
    unfold saveWith
    rw [hAlike.write_eq, hAlike.save_eq]
  unfold load
  rw [hAlike.seek_eq, hSave]

end Store

end SymbolAtlas

------------------------------------------------------------
-- Nothing Is Lost
------------------------------------------------------------

namespace SymbolAtlas

namespace Store

/-
  A save that succeeds in a working directory that exists, with
  no link at one of the files of the store.
-/
structure Saves
    (s : Store)
    (k : Snapshot)
    (desk final : Desk) : Prop where
  cwd : desk.disk.Grounded desk.disk.cwd
  links :
    ∀ suffix ∈ suffixes, ¬ desk.disk.IsLink (s.fileIn suffix)
  saved : s.save k desk = .ok () final

/- The bytes in the artifact, and what is read from it. -/
theorem Saves.read_eq
    {s : Store}
    {k : Snapshot}
    {desk final : Desk}
    (hSaves : s.Saves k desk final) :
    k.isWritable = true ∧
    final.disk.read s.path = .ok k.artifact.toUTF8 ∧
    s.read final = .ok (some k.arranged) final := by
  rcases s.exists_alike with ⟨t, hKey, hAlike⟩
  have hStart := Disk.grounded_startOf hSaves.cwd t.directory
  have hLinks :
      ∀ suffix ∈ suffixes,
        ¬ desk.disk.IsLink (t.fileIn suffix) := by
    intro suffix hSuffix
    rw [hAlike.fileIn_eq suffix hSuffix]
    exact hSaves.links suffix hSuffix
  have hSaved := hSaves.saved
  rw [← hAlike.save_eq] at hSaved
  rcases acquire_cases t.lockPath .exclusive desk with
    ⟨lock, after, hAcquire, hOpen⟩ | ⟨error, hAcquire⟩
  · rcases clear_of_openAppending hKey hStart hLinks hOpen with
      ⟨place, hClear⟩
    have hDone := hClear.saved_of_save hKey hSaved
    rw [← hAlike.path, ← hAlike.read_eq]
    exact ⟨hDone.writable,
      (hClear.of_refiled hDone.refiled).read_path hKey
        hDone.artifact,
      hDone.read_eq hKey hClear⟩
  · unfold save at hSaved
    rw [Work.bind_of_error hAcquire] at hSaved
    cases hSaved

/-
  What was saved is read back, and two saves leave the same bytes
  if and only if the snapshots know the same.
-/
theorem Saves.lossless
    {s : Store}
    {k : Snapshot}
    {desk final : Desk}
    (hSaves : s.Saves k desk final) :
    (∃ content l,
      final.disk.read s.path = .ok content ∧
      s.read final = .ok (some l) final ∧
      l.SameMaps k) ∧
    ∀ {t : Store} {l : Snapshot} {other last : Desk},
      t.Saves l other last →
      (last.disk.read t.path = final.disk.read s.path ↔
        l.SameMaps k) := by
  rcases hSaves.read_eq with ⟨hWritable, hContent, hRead⟩
  refine ⟨⟨_, _, hContent, hRead, k.sameMaps_arranged⟩, ?_⟩
  intro t l other last hOther
  rcases hOther.read_eq with ⟨-, hBytes, -⟩
  rw [hBytes, hContent, Except.ok.injEq]
  exact Snapshot.artifact_eq_iff_sameMaps hWritable

/- Names and numbers that do not stand for themselves. -/
def strangeSnapshot : Snapshot where
  symbols :=
    .ofList [("App\\Ä\"", ⟨"/w/\n😀.php", -3⟩),
      ("App\\B", ⟨"/w/\u007f.php", 1180591620717411303424⟩)]
  missing := .ofList [("😀", -36893488147419103232)]

/- The same in another order. -/
def turnedSnapshot : Snapshot where
  symbols :=
    .ofList [("App\\B", ⟨"/w/\u007f.php", 1180591620717411303424⟩),
      ("App\\Ä\"", ⟨"/w/\n😀.php", -3⟩)]
  missing := .ofList [("😀", -36893488147419103232)]

/- A desk with a directory for artifacts. -/
def emptyDesk : Desk :=
  ⟨{ nodes := [(["c"], .newDirectory)] }, []⟩

/- A store in that directory, and one that tells everything. -/
def quietStore : Store where
  directory := "/c"
  key := "k"

def tellingStore : Store :=
  { quietStore with isDebug := true }

/- The same store with a key that leads through a directory. -/
def nestedStore : Store :=
  { quietStore with key := "../c/k" }

def hasSaved (s : Store) (k : Snapshot) (desk : Desk) : Bool :=
  match s.save k desk with
  | .ok _ _ => true
  | .error _ _ => false

theorem saves_of_hasSaved
    {s : Store}
    {k : Snapshot}
    {desk : Desk}
    (hCwd : desk.disk.cwd = [])
    (hLinks :
      ∀ suffix ∈ suffixes, ¬ desk.disk.IsLink (s.fileIn suffix))
    (hSaved : hasSaved s k desk = true) :
    ∃ final, s.Saves k desk final := by
  unfold hasSaved at hSaved
  cases hSave : s.save k desk with
  | error error final =>
      rw [hSave] at hSaved
      cases hSaved
  | ok value final =>
      refine ⟨final, ?_, hLinks, hSave⟩
      rw [hCwd]
      exact Disk.grounded_nil desk.disk

/- Strange names are read back from a directory within one. -/
theorem strange_snapshot_lossless :
    ∃ final last,
      Saves nestedStore strangeSnapshot emptyDesk
        final ∧
      Saves quietStore turnedSnapshot emptyDesk last ∧
      (∃ l,
        read nestedStore final = .ok (some l) final ∧
        l.SameMaps strangeSnapshot) ∧
      last.disk.read (path quietStore) =
        final.disk.read (path nestedStore) := by
  have hSaves :
      ∃ final,
        Saves nestedStore strangeSnapshot emptyDesk
          final :=
    saves_of_hasSaved rfl (by decide +kernel) (by decide +kernel)
  have hSavesTurned :
      ∃ last,
        Saves quietStore turnedSnapshot emptyDesk last :=
    saves_of_hasSaved rfl (by decide +kernel) (by decide +kernel)
  rcases hSaves with ⟨final, hFirst⟩
  rcases hSavesTurned with ⟨last, hSecond⟩
  rcases hFirst.lossless with
    ⟨⟨content, l, -, hRead, hSame⟩, hBytes⟩
  have hTurned : turnedSnapshot.SameMaps strangeSnapshot :=
    ⟨Keyed.sameMap_iff_perm.mpr (by decide +kernel),
      Keyed.SameMap.refl _, Keyed.SameMap.refl _⟩
  exact ⟨final, last, hFirst, hSecond, ⟨l, hRead, hSame⟩,
    (hBytes hSecond).mpr hTurned⟩

end Store

end SymbolAtlas
