import SymbolAtlas.Proofs.Index.Origins
import SymbolAtlas.Proofs.Index.Settling

/-
  Excluded paths that are indexed all the same.

  A walk keeps and enters nothing that is an excluded path
  itself. Going down directory by directory it does not come
  into one from above, but it may start inside one, or turn into
  one where it follows a link. Files that the settings name are
  not looked at. So a file that is indexed lies at or below an
  excluded path if and only if the last turn on the way to it
  does.

  Key definitions:
    * `Settings.ExcludesAt`, `Settings.Excludes`
  Key theorems:
    * `Settings.excludes_iff`
    * `Index.indexed_excluded_iff_last_turn`
-/

------------------------------------------------------------
-- Excluded Paths
------------------------------------------------------------

namespace SymbolAtlas

theorem Route.isSome_below?_iff
    {base r : Route} :
    (base.below? r).isSome = true ↔
      base.root = r.root ∧ base.names <+: r.names := by
  unfold below?
  rw [← List.isPrefixOf_iff_prefix]
  split
  · next hBelow => simpa using hBelow
  · next hBelow => simpa using hBelow

namespace Settings

/- The real path of something that exists and is excluded. -/
def ExcludesAt (s : Settings) (d : Disk) (real : String) : Prop :=
  ∃ item ∈ s.exclude,
    s.resolvePath d item = .ok real ∧ d.exists? real = true

/- The real path of the path is excluded or lies below one. -/
def Excludes (s : Settings) (d : Disk) (path : String) : Prop :=
  ∃ real goal,
    s.ExcludesAt d real ∧
    d.resolve path = .ok goal ∧
    ((Route.ofText real).below? (Route.ofText goal)).isSome = true

variable {s : Settings} {d : Disk}

/- What exists is excluded if a place above it is. -/
theorem excludes_iff
    (hProper : d.IsProper)
    {path : String}
    {place : Place}
    (hPlace : d.LeadsTo path place) :
    s.Excludes d path ↔
      ∃ above,
        above <+: place ∧ s.ExcludesAt d (Disk.textOf above) := by
  have hResolve := hPlace.resolve_eq hProper.tree hProper.sound
  have hRoute :
      ∀ above, above <+: place →
        Route.ofText (Disk.textOf above) = ⟨"/", above⟩ := by
    intro above hAbove
    have hNames := hPlace.isName hProper.sound
    rw [← Disk.text_of_place,
      (Disk.isRead_of_isName fun name hName =>
        hNames name (hAbove.subset hName)).ofText_text]
  constructor
  · rintro ⟨real, goal, ⟨item, hItem, hReal, hExists⟩, hGoal,
      hBelow⟩
    rw [hResolve] at hGoal
    cases hGoal
    rw [hRoute place (List.prefix_refl _),
      Route.isSome_below?_iff] at hBelow
    -- A real path is the text of the route that is read from it.
    have hText :
        real = Disk.textOf (Route.ofText real).names := by
      rw [← Disk.text_of_place]
      have hRead :
          Route.ofText real =
            ⟨"/", (Route.ofText real).names⟩ := by
        rw [Route.mk.injEq]
        exact ⟨hBelow.1, rfl⟩
      rw [← hRead]
      exact (Settings.normal_of_resolvePath hProper hReal).symm
    refine ⟨(Route.ofText real).names, hBelow.2, item, hItem, ?_⟩
    rw [← hText]
    exact ⟨hReal, hExists⟩
  · rintro ⟨above, hAbove, hExcluded⟩
    refine ⟨_, _, hExcluded, hResolve, ?_⟩
    rw [hRoute above hAbove, hRoute place (List.prefix_refl _),
      Route.isSome_below?_iff]
    exact ⟨rfl, hAbove⟩

end Settings

end SymbolAtlas

------------------------------------------------------------
-- Indexed Files
------------------------------------------------------------

namespace SymbolAtlas

namespace Sources

variable {d : Disk} {s : Settings}
variable {start path : String} {trail : List String}

theorem bans_of_excludesAt
    {real : String}
    (hExcluded : s.ExcludesAt d real) :
    Bans d s real := by
  rcases hExcluded with ⟨item, hItem, hReal, hExists⟩
  exact ⟨⟨item, List.mem_append_right _ hItem, hReal⟩, hExists⟩

/- On a way to a source nothing is an excluded path itself. -/
theorem Reaches.not_excludesAt
    (hProper : d.IsProper)
    (hReaches : Reaches d s start trail path)
    {steps : List String}
    (hSome : steps ≠ [])
    (hSteps : steps <+: trail)
    {real : String}
    (hReal : d.resolve (Path.below start steps) = .ok real) :
    ¬ s.ExcludesAt d real := by
  rcases List.eq_nil_or_concat steps with hNil | ⟨front, step, rfl⟩
  · exact absurd hNil hSome
  rw [List.concat_eq_append] at hSteps hReal
  rcases hReaches.steps hProper.tree hProper.sound front step
      hSteps with
    ⟨-, -, place, hPlace, hAllowed⟩
  rw [hPlace.resolve_eq hProper.tree hProper.sound] at hReal
  cases hReal
  exact fun hExcluded => hAllowed (bans_of_excludesAt hExcluded)

/-
  Behind the last turn a way goes down directory by directory,
  so it comes to no excluded path that is not above the turn.
-/
theorem Reaches.excludes_iff_lastTurn
    (hProper : d.IsProper)
    (hReaches : Reaches d s start trail path) :
    s.Excludes d path ↔
      s.Excludes d (Search.lastTurn d start trail) := by
  rcases hReaches.exists_start hProper.tree hProper.sound with
    ⟨first, hStart⟩
  rcases (hReaches.steps hProper.tree
      hProper.sound).exists_lastTurn hStart with
    ⟨place, rest, hTurn, hEnd, hRest⟩
  rw [← hReaches.path_eq] at hEnd
  rw [Settings.excludes_iff hProper hEnd,
    Settings.excludes_iff hProper hTurn]
  constructor
  · rintro ⟨above, hAbove, hExcluded⟩
    by_cases hTop : above <+: place
    · exact ⟨above, hTop, hExcluded⟩
    rcases List.prefix_or_prefix_of_prefix hAbove
        (List.prefix_append place rest) with hFirst | hSecond
    · exact absurd hFirst hTop
    rcases hSecond with ⟨more, rfl⟩
    have hSome : more ≠ [] := by
      rintro rfl
      exact hTop (by simp)
    exact absurd (bans_of_excludesAt hExcluded)
      (hRest more hSome
        ((List.prefix_append_right_inj place).mp hAbove))
  · rintro ⟨above, hAbove, hExcluded⟩
    exact ⟨above, hAbove.trans (List.prefix_append _ _), hExcluded⟩

end Sources

namespace Index

/-
  A file that a rebuild has indexed was come to on some way. On
  every way to it nothing is an excluded path itself, and the
  file lies at or below an excluded path if and only if the last
  turn of the way does.
-/
theorem indexed_excluded_iff_last_turn
    {c : Context}
    (hProper : c.disk.IsProper)
    {i final : Index}
    (hRebuild : rebuild c i = .ok () final)
    {file : String}
    {mtime : Int}
    (hFile : final.known.Records file mtime) :
    (∃ start trail,
      Sources.Reaches c.disk c.settings start trail file) ∧
    ∀ start trail,
      Sources.Reaches c.disk c.settings start trail file →
        (∀ steps real,
          steps ≠ [] →
          steps <+: trail →
          c.disk.resolve (Path.below start steps) = .ok real →
            ¬ c.settings.ExcludesAt c.disk real) ∧
        (c.settings.Excludes c.disk file ↔
          c.settings.Excludes c.disk
            (Search.lastTurn c.disk start trail)) := by
  refine ⟨?_, ?_⟩
  · rcases ((settled_of_rebuild hRebuild).recorded file
        mtime).mp hFile with
      ⟨source, hSource, rfl, -⟩
    exact Sources.exists_reaches_of_mem hProper.sound
      (Sources.firsts_subset hSource)
  · intro start trail hReaches
    exact ⟨fun steps real hSome hSteps hReal =>
        hReaches.not_excludesAt hProper hSome hSteps hReal,
      hReaches.excludes_iff_lastTurn hProper⟩

/- A library with a link into a directory that is excluded. -/
def sideDoor : Context where
  disk :=
    { nodes := [
        (["w"], .newDirectory),
        (["w", "lib"], .newDirectory),
        (["w", "lib", "sub"], .link "../old/sub"),
        (["w", "old"], .newDirectory),
        (["w", "old", "sub"], .newDirectory),
        (["w", "old", "sub", "a.php"], .file .empty 5)]
      cwd := ["w"] }
  settings :=
    { projectDir := "/w"
      roots := ["lib"]
      exclude := ["old"] }
  strict := true

theorem sideDoor_rebuild :
    sideDoor.disk.IsProper ∧
    (rebuild sideDoor {} matches .ok _ _) = true ∧
    ⟨"/w/lib/sub/a.php", 5, false⟩ ∈ sourcesOf sideDoor ∧
    sideDoor.settings.Excludes sideDoor.disk
      "/w/lib/sub/a.php" := by
  refine ⟨⟨by decide +kernel, ⟨by decide, by decide⟩, by decide⟩,
    by decide +kernel, by decide +kernel, ?_⟩
  exact ⟨"/w/old", "/w/old/sub/a.php",
    ⟨"old", by decide, by decide +kernel, by decide +kernel⟩,
    by decide +kernel, by decide +kernel⟩

/- What lies behind the link is indexed, as the link leads in. -/
theorem linked_file_is_indexed :
    ∃ final start trail,
      rebuild sideDoor {} = .ok () final ∧
      final.known.Records "/w/lib/sub/a.php" 5 ∧
      sideDoor.settings.Excludes sideDoor.disk
        "/w/lib/sub/a.php" ∧
      Sources.Reaches sideDoor.disk sideDoor.settings start trail
        "/w/lib/sub/a.php" ∧
      sideDoor.settings.Excludes sideDoor.disk
        (Search.lastTurn sideDoor.disk start trail) := by
  rcases sideDoor_rebuild with
    ⟨hProper, hSucceeds, hSource, hExcluded⟩
  cases hRebuild : rebuild sideDoor {} with
  | error error final =>
      rw [hRebuild] at hSucceeds
      cases hSucceeds
  | ok value final =>
      have hRecords :=
        ((settled_of_rebuild hRebuild).recorded
          "/w/lib/sub/a.php" 5).mpr ⟨_, hSource, rfl, rfl⟩
      rcases indexed_excluded_iff_last_turn hProper hRebuild
          hRecords with
        ⟨⟨start, trail, hReaches⟩, hWays⟩
      exact ⟨final, start, trail, rfl, hRecords, hExcluded,
        hReaches, (hWays start trail hReaches).2.mp hExcluded⟩

end Index

end SymbolAtlas
