import SymbolAtlas.Proofs.Index.Origins
import SymbolAtlas.Proofs.Search.Depth
import SymbolAtlas.Proofs.Search.Exactness
import SymbolAtlas.Proofs.Search.Expanding
import SymbolAtlas.Proofs.Search.Guards
import SymbolAtlas.Proofs.Search.Stops

/-
  Walks on disks that differ in one directory.

  A walk goes down through directories, and these are the same on
  both disks. So it fails on both or on none, and it comes to the
  same entries, but for files in the directory.

  Key definitions:
    * `Disk.Shares`
    * `Search.Walker.AgreesWith`
  Key theorems:
    * `Search.Listed.of_twins`
    * `Search.Walker.failure_walk_of_twins`
    * `Search.Walker.mem_walk_of_twins`
-/

------------------------------------------------------------
-- The Same Entries
------------------------------------------------------------

namespace SymbolAtlas

namespace Disk

/-
  Something stands at the path that is no file in the directory
  at the place.
-/
def Shares
    (d : Disk)
    (place : Place)
    (path : String) : Prop :=
  ∃ stat,
    d.stat path = .ok stat ∧
      (stat.isDirectory = true ∨ d.IsOutside place path)

variable {place : Place} {d e : Disk} {path : String}

theorem SameOutside.shares
    (hSame : SameOutside place d e)
    (hShares : d.Shares place path) :
    e.Shares place path := by
  rcases hShares with ⟨stat, hStat, hSeen⟩
  exact ⟨stat, hSame.stat_eq hStat hSeen,
    hSeen.imp_right hSame.isOutside⟩

end Disk

namespace Search

variable {place : Place} {d e : Disk} {base name : String}
variable {trail : List String} {record : Record}

/- Below a rooted base a record is of what is at its path. -/
theorem Listed.taken_at_path
    (hRooted : Path.isRooted base = true)
    (hListed : Listed d base trail name record) :
    record.path = Path.child (Record.pathAlong base trail) name ∧
    Record.ofStat? record.path record.relative
      (d.stat record.path) = some record := by
  rcases Record.pathAlong_of_rooted hRooted trail with
    ⟨hText, hBelow⟩
  rcases Record.texts_of_ofListed? hListed.taken with
    ⟨hPath, hRelative⟩
  have hChild :
      record.path =
        Path.child (Record.pathAlong base trail) name := by
    rw [hPath]
    unfold Record.pathOf
    rw [hText]
    exact if_pos (Path.isAbsolute_of_isRooted hBelow)
  refine ⟨hChild, ?_⟩
  have hTaken := hListed.taken
  rw [Record.ofListed?_eq, ← hPath, ← hRelative, ← hChild]
    at hTaken
  exact hTaken

theorem Listed.shares_of_isDirectory
    (hRooted : Path.isRooted base = true)
    (hListed : Listed d base trail name record)
    (hDirectory : record.isDirectory = true) :
    d.Shares place record.path := by
  rcases Record.stat_of_isDirectory
      (hListed.taken_at_path hRooted).2 hDirectory with
    ⟨mtime, hStat⟩
  exact ⟨_, hStat, .inl rfl⟩

/- What the disks share is listed on both. -/
theorem Listed.of_twins
    (hTwins : Disk.Twins place d e)
    (hRooted : Path.isRooted base = true)
    (hListed : Listed d base trail name record)
    (hShares : d.Shares place record.path) :
    Listed e base trail name record := by
  have hSame := hTwins.toSameOutside
  have hPath := (hListed.taken_at_path hRooted).1
  rcases hShares with ⟨stat, hStat, hSeen⟩
  have hOther := hSame.stat_eq hStat hSeen
  rw [hPath] at hStat hSeen hOther
  refine ⟨hSame.mem_namesAt hTwins.tree
    (hTwins.sound.isName_of_mem_namesAt hListed.listed)
    hListed.listed hStat hSeen, ?_⟩
  rw [Record.ofListed?_eq, hOther, ← hStat, ← Record.ofListed?_eq]
  exact hListed.taken

end Search

end SymbolAtlas

------------------------------------------------------------
-- The Same Ways Down
------------------------------------------------------------

namespace SymbolAtlas

namespace Search

namespace Walker

/-
  The walkers go as deep as each other and give the same answers
  about what is shared.
-/
structure AgreesWith
    (d : Disk)
    (place : Place)
    (w v : Walker) : Prop where
  content : v.content = w.content
  descent : v.descent = w.descent
  maxDepth : v.maxDepth = w.maxDepth
  ignoreUnreadable : v.ignoreUnreadable = w.ignoreUnreadable
  answer :
    ∀ record,
      d.Shares place record.path →
      ∀ index, v.answer record index = w.answer record index

variable {place : Place} {d e : Disk} {w v : Walker}
variable {base : String} {goals : List Goal}

theorem AgreesWith.symm
    (hTwins : Disk.Twins place d e)
    (hAgrees : AgreesWith d place w v) :
    AgreesWith e place v w where
  content := hAgrees.content.symm
  descent := hAgrees.descent.symm
  maxDepth := hAgrees.maxDepth.symm
  ignoreUnreadable := hAgrees.ignoreUnreadable.symm
  answer := fun record hShares index =>
    (hAgrees.answer record
      (hTwins.toSameOutside.symm.shares hShares) index).symm

theorem AgreesWith.lenient
    (hAgrees : AgreesWith d place w v) :
    AgreesWith d place w.lenient v.lenient where
  content := hAgrees.content
  descent := hAgrees.descent
  maxDepth := hAgrees.maxDepth
  ignoreUnreadable := rfl
  answer := hAgrees.answer

theorem AgreesWith.allows
    (hAgrees : AgreesWith d place w v)
    {depth : Nat}
    (hAllows : w.Allows depth) :
    v.Allows depth := by
  unfold Allows
  rw [hAgrees.maxDepth]
  exact hAllows

theorem AgreesWith.passes_eq
    (hAgrees : AgreesWith d place w v)
    {record : Record}
    (hShares : d.Shares place record.path)
    (indexes : List Nat) :
    v.passes indexes record = w.passes indexes record := by
  unfold passes
  congr 1
  funext index
  exact hAgrees.answer record hShares index

/- Directories are on both disks, and open on both or on none. -/
theorem AgreesWith.way
    (hTwins : Disk.Twins place d e)
    (hAgrees : AgreesWith d place w v)
    (hRooted : Path.isRooted base = true)
    {front : List String}
    (hWay :
      AllSteps
        (fun steps step =>
          ∃ entry,
            Listed d base steps step entry ∧ w.Opens entry)
        front) :
    AllSteps
      (fun steps step =>
        ∃ entry,
          Listed e base steps step entry ∧ v.Opens entry)
      front := by
  refine hWay.mono ?_
  rintro steps step ⟨entry, hListed, hDirectory, hPasses⟩
  have hShares : d.Shares place entry.path :=
    hListed.shares_of_isDirectory hRooted hDirectory
  refine ⟨entry, hListed.of_twins hTwins hRooted hShares,
    hDirectory, ?_⟩
  rw [hAgrees.descent, hAgrees.passes_eq hShares]
  exact hPasses

/- A way down has fewer steps than a walk may go. -/
theorem length_lt_of_way
    (hTree : d.IsTree)
    (hSound : d.IsSound)
    (hRooted : Path.isRooted base = true)
    {front : List String}
    (hWay :
      AllSteps
        (fun steps step =>
          ∃ entry,
            Listed d base steps step entry ∧ w.Opens entry)
        front) :
    front.length < depthBound d := by
  have hSome : base ≠ "" := by
    rintro rfl
    cases hRooted
  have hNames : ∀ step ∈ front, Disk.IsName step := by
    refine hWay.forall_mem ?_
    rintro steps step ⟨entry, hListed, -⟩
    exact hSound.isName_of_mem_namesAt hListed.listed
  rcases List.eq_nil_or_concat front with
    rfl | ⟨before, last, rfl⟩
  · unfold depthBound
    exact Nat.mul_pos (by omega) (by omega)
  · rw [List.concat_eq_append] at hWay hNames ⊢
    rcases (allSteps_concat_iff.mp hWay).2 with
      ⟨entry, hListed, hDirectory, -⟩
    rcases Record.stat_of_isDirectory
        (hListed.taken_at_path hRooted).2 hDirectory with
      ⟨mtime, hStat⟩
    rw [hListed.path_eq, (Record.pathAlong_of_rooted hRooted _).1]
      at hStat
    apply length_lt_depthBound hTree hSome hNames
    exact Disk.isDirectory_iff_stat.mpr ⟨mtime, hStat⟩

end Walker

end Search

end SymbolAtlas

------------------------------------------------------------
-- The Same Walks
------------------------------------------------------------

namespace SymbolAtlas

namespace Search

namespace Walker

variable {place : Place} {d e : Disk} {w v : Walker}
variable {base : String} {goals : List Goal}

/- A walk that is not cut short on one disk is not on the other. -/
theorem failure_walk_of_twins
    (hTwins : Disk.Twins place d e)
    (hAgrees : AgreesWith d place w v)
    (hRooted : Path.isRooted base = true)
    (hWhole : (w.walk d base goals).failure = none) :
    (v.walk e base goals).failure = none := by
  cases hIgnore : w.ignoreUnreadable with
  | true =>
      exact failure_traverse
        (hAgrees.ignoreUnreadable.trans hIgnore) e _ _ _ _
  | false =>
      have hStrict := hAgrees.ignoreUnreadable.trans hIgnore
      have hNil :
          ∀ step ∈ ([] : List String), Disk.IsName step := by
        simp
      have hBase : Record.pathAlong base [] = base := rfl
      unfold walk at hWhole ⊢
      rw [← hBase, failure_traverse_eq_none_iff hTwins.sound
        hIgnore hNil] at hWhole
      rw [← hBase, failure_traverse_eq_none_iff hTwins.soundToo
        hStrict hNil]
      -- A way down on the second disk is one on the first.
      intro front _ hAllows hDown
      have hBack := hAgrees.symm hTwins
      have hWay := hBack.way hTwins.symm hRooted hDown.way
      rcases hWhole front
          (length_lt_of_way hTwins.tree hTwins.sound hRooted hWay)
          (hBack.allows hAllows) ⟨hWay, hDown.deep⟩ with
        ⟨names, hList⟩
      exact hTwins.toSameOutside.exists_list hList

/- What the disks share is found on both, if walks are whole. -/
theorem mem_walk_of_twins
    (hTwins : Disk.Twins place d e)
    (hAgrees : AgreesWith d place w v)
    (hRooted : Path.isRooted base = true)
    (hWhole : (w.walk d base goals).failure = none)
    {record : Record}
    (hRecord : record ∈ (w.walk d base goals).records)
    (hShares : d.Shares place record.path) :
    record ∈ (v.walk e base goals).records := by
  have hOther :=
    failure_walk_of_twins hTwins hAgrees hRooted hWhole
  have hFirst : w.lenient.walk d base goals = w.walk d base goals :=
    traverse_eq_lenient hWhole
  have hSecond :
      v.lenient.walk e base goals = v.walk e base goals :=
    traverse_eq_lenient hOther
  rw [← hFirst, mem_records_walk_iff hTwins.sound rfl] at hRecord
  rw [← hSecond, mem_records_walk_iff hTwins.soundToo rfl]
  rcases hRecord with ⟨front, name, -, hAllows, hComes⟩
  have hLenient := hAgrees.lenient
  have hWay := hLenient.way hTwins hRooted hComes.way
  refine ⟨front, name,
    length_lt_of_way hTwins.treeToo hTwins.soundToo hRooted hWay,
    hLenient.allows hAllows, hWay,
    hComes.entry.of_twins hTwins hRooted hShares,
    hComes.wanted, ?_⟩
  rw [hLenient.content, hLenient.passes_eq hShares]
  exact hComes.kept

end Walker

end Search

end SymbolAtlas
