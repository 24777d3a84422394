import SymbolAtlas.Proofs.Path.Rooted

/-
  The normal form of a path leads to the same file.

  Names that say nothing are dropped from a path text when it is
  brought into normal form. A search passes over them, so where
  a path leads to a file its normal form does too.

  Key definitions:
    * `Route.IsRead`
    * `Path.Thins`, names without some that say nothing
  Key theorems:
    * `Route.IsRead.names_text`
    * `Path.normal_normal`
    * `Disk.follow_of_thins`
    * `Disk.locate_text`
    * `Disk.stat_normal`
-/

------------------------------------------------------------
-- Names of Texts
------------------------------------------------------------

namespace SymbolAtlas

namespace Path

theorem not_mem_of_mem_segments
    {text segment : List Char}
    (hSegment : segment ∈ segments text) :
    '/' ∉ segment := by
  induction text generalizing segment with
  | nil =>
      simp only [segments, List.splitOn_nil,
        List.mem_singleton] at hSegment
      simp [hSegment]
  | cons c rest ih =>
      unfold segments at hSegment ih
      rw [List.splitOn_cons_eq_if_modifyHead] at hSegment
      split at hSegment
      · rcases List.mem_cons.mp hSegment with rfl | hRest
        · simp
        · exact ih hRest
      · next hSlash =>
          cases hSplit : rest.splitOn '/' with
          | nil => simp [hSplit] at hSegment
          | cons first others =>
              rw [hSplit] at hSegment ih
              rw [List.modifyHead_cons] at hSegment
              rcases List.mem_cons.mp hSegment with
                rfl | hOthers
              · have hFirst := ih List.mem_cons_self
                have hNe : '/' ≠ c := by
                  rintro rfl
                  simp at hSlash
                simp [hFirst, hNe]
              · exact ih (List.mem_cons_of_mem _ hOthers)

theorem not_mem_of_mem_names
    {text name : String}
    (hName : name ∈ names text) :
    '/' ∉ name.toList := by
  rcases List.mem_map.mp hName with ⟨segment, hSegment, rfl⟩
  simpa using not_mem_of_mem_segments hSegment

theorem names_slash_append
    (text : String) :
    names ("/" ++ text) = "" :: names text := by
  have hChars : ("/" ++ text).toList = '/' :: text.toList := by
    simp
  simp [names, segments, hChars,
    List.splitOn_cons_eq_if_modifyHead]

/- Names without slashes are found again between slashes. -/
theorem names_joined
    {list : List String}
    (hNames : ∀ name ∈ list, '/' ∉ name.toList)
    (hSome : list ≠ []) :
    names (joined list) = list := by
  have hChars :
      (joined list).toList =
        ['/'].intercalate (list.map String.toList) := by
    simp [joined, String.toList_intercalate]
  unfold names segments
  rw [hChars, List.splitOn_intercalate]
  · simp [Function.comp_def]
  · intro chars hMem
    rcases List.mem_map.mp hMem with ⟨name, hName, rfl⟩
    exact hNames name hName
  · simpa using hSome

/- A text without a slash is one name. -/
theorem names_of_not_mem
    {text : String}
    (hSlash : '/' ∉ text.toList) :
    names text = [text] := by
  have hJoined : joined [text] = text := by
    simp [joined]
  have hNames : names (joined [text]) = [text] :=
    names_joined (by simpa using hSlash) (by simp)
  rw [hJoined] at hNames
  exact hNames

/- Joined names lose none of them. -/
theorem exists_names_joined
    {list : List String}
    (hNames : ∀ name ∈ list, '/' ∉ name.toList) :
    ∃ voids,
      (∀ name ∈ voids, Route.isVoid name = true) ∧
      names (joined list) = voids ++ list := by
  by_cases hSome : list = []
  · subst hSome
    exact ⟨[""], by decide, by decide⟩
  · exact ⟨[], by simp, names_joined hNames hSome⟩

theorem exists_names_slash_append
    {text : String}
    {list : List String}
    (hNames :
      ∃ voids,
        (∀ name ∈ voids, Route.isVoid name = true) ∧
        names text = voids ++ list) :
    ∃ voids,
      (∀ name ∈ voids, Route.isVoid name = true) ∧
      names ("/" ++ text) = voids ++ list := by
  rcases hNames with ⟨voids, hVoids, hText⟩
  refine ⟨"" :: voids, ?_, ?_⟩
  · intro name hName
    rcases List.mem_cons.mp hName with rfl | hName
    · rfl
    · exact hVoids name hName
  · rw [names_slash_append, hText, List.cons_append]

theorem rootOf_cases
    (text : List Char) :
    Route.rootOf text = "" ∨ Route.rootOf text = "/" ∨
      Route.rootOf text = "//" := by
  unfold Route.rootOf
  split <;> simp

end Path

end SymbolAtlas

------------------------------------------------------------
-- Texts of Routes
------------------------------------------------------------

namespace SymbolAtlas

namespace Route

/- The root and the names are such as can be read from a text. -/
structure IsRead (r : Route) : Prop where
  roots : r.root = "" ∨ r.root = "/" ∨ r.root = "//"
  names :
    ∀ name ∈ r.names, '/' ∉ name.toList ∧ isVoid name = false

theorem isRead_ofText
    (text : String) :
    (ofText text).IsRead := by
  refine ⟨Path.rootOf_cases _, ?_⟩
  intro name hName
  rcases List.mem_filter.mp hName with ⟨hMem, hSays⟩
  exact ⟨Path.not_mem_of_mem_names hMem, by simpa using hSays⟩

theorem IsRead.append
    {base rest : Route}
    (hBase : base.IsRead)
    (hRest : rest.IsRead) :
    (base ++ rest).IsRead := by
  change (Route.append base rest).IsRead
  unfold Route.append
  split
  · exact hRest
  · refine ⟨hBase.roots, ?_⟩
    intro name hName
    rcases List.mem_append.mp hName with hFirst | hSecond
    · exact hBase.names name hFirst
    · exact hRest.names name hSecond

variable {r : Route}

/- No name is empty, so joined names do not look like none. -/
theorem IsRead.names_eq_nil
    (hRead : r.IsRead)
    (hBlank : "" ∈ Path.names (Path.joined r.names)) :
    r.names = [] := by
  by_contra hSome
  rw [Path.names_joined (fun name hName =>
    (hRead.names name hName).1) hSome] at hBlank
  cases (hRead.names "" hBlank).2

/- The text of a route has its names. -/
theorem IsRead.names_text
    (hRead : r.IsRead) :
    ∃ voids,
      (∀ name ∈ voids, isVoid name = true) ∧
      Path.names r.text = voids ++ r.names := by
  have hJoined :=
    Path.exists_names_joined fun name hName =>
      (hRead.names name hName).1
  unfold text
  dsimp only
  rcases hRead.roots with hRoot | hRoot | hRoot
  · rw [hRoot, String.empty_append]
    split
    · next hEmpty =>
        have hBlank : Path.joined r.names = "" := by
          simpa using hEmpty
        have hNone : r.names = [] := by
          apply hRead.names_eq_nil
          rw [hBlank]
          decide
        rw [hNone]
        exact ⟨["."], by decide, by decide⟩
    · exact hJoined
  · rw [hRoot, if_neg (by simp)]
    exact Path.exists_names_slash_append hJoined
  · have hTwo : "//" ++ Path.joined r.names =
        "/" ++ ("/" ++ Path.joined r.names) := by
      rw [← String.append_assoc]
      rfl
    rw [hRoot, if_neg (by simp), hTwo]
    exact Path.exists_names_slash_append
      (Path.exists_names_slash_append hJoined)

/- A slash in front would make the first name empty. -/
theorem IsRead.isRooted_joined
    (hRead : r.IsRead) :
    Path.isRooted (Path.joined r.names) = false := by
  by_contra hNot
  have hSlash : Path.isRooted (Path.joined r.names) = true := by
    simpa using hNot
  rcases Path.isRooted_iff.mp hSlash with ⟨rest, hRest⟩
  have hJoined :
      Path.joined r.names = "/" ++ String.ofList rest := by
    apply String.toList_injective
    simp [hRest]
  have hNone : r.names = [] := by
    apply hRead.names_eq_nil
    rw [hJoined, Path.names_slash_append]
    exact List.mem_cons_self
  rw [hNone] at hSlash
  cases hSlash

/- The text of a route starts at the root if the route does. -/
theorem IsRead.isRooted_text_iff
    (hRead : r.IsRead) :
    Path.isRooted r.text = r.isRooted := by
  rcases hRead.roots with hRoot | hRoot | hRoot
  · unfold text isRooted
    dsimp only
    rw [hRoot, String.empty_append]
    split
    · decide
    · rw [hRead.isRooted_joined]
      rfl
  · rw [isRooted_text (by rw [hRoot]; decide), isRooted, hRoot]
    decide
  · rw [isRooted_text (by rw [hRoot]; decide), isRooted, hRoot]
    decide

theorem isEmpty_text
    (r : Route) :
    r.text.isEmpty = false := by
  unfold text
  dsimp only
  split
  · rfl
  · next hBody => simpa using hBody

theorem isRooted_ofText
    (text : String) :
    (ofText text).isRooted = Path.isRooted text := by
  unfold isRooted ofText Path.isRooted
  dsimp only
  cases text.toList with
  | nil => rfl
  | cons c rest =>
      by_cases hSlash : c = '/'
      · subst hSlash
        unfold rootOf
        split <;> simp_all
      · have hNoRoot : rootOf (c :: rest) = "" := by
          unfold rootOf
          split <;> simp_all
        have hOther : (c == '/') = false := by simpa using hSlash
        simp only [hNoRoot, List.head?_cons, Option.some_beq_some,
          hOther]
        rfl

/- Slashes in front are the root if no third one follows. -/
theorem rootOf_append
    {root text : List Char}
    (hRoot : root = ['/'] ∨ root = ['/', '/'])
    (hText : text.head? ≠ some '/') :
    rootOf (root ++ text) = String.ofList root := by
  rcases hRoot with rfl | rfl
  · cases text with
    | nil => rfl
    | cons c rest =>
        unfold rootOf
        split <;> simp_all
  · cases text with
    | nil => rfl
    | cons c rest =>
        unfold rootOf
        split <;> grind

/- The root of a route can be read from its text. -/
theorem IsRead.rootOf_text
    (hRead : r.IsRead) :
    rootOf r.text.toList = r.root := by
  have hNoSlash :
      (Path.joined r.names).toList.head? ≠ some '/' := by
    have hFalse := hRead.isRooted_joined
    unfold Path.isRooted at hFalse
    simpa using hFalse
  rcases hRead.roots with hRoot | hRoot | hRoot
  · have hRooted := (isRooted_ofText r.text).trans
      hRead.isRooted_text_iff
    unfold isRooted at hRooted
    rw [hRoot, Bool.not_inj_iff] at hRooted
    rw [hRoot]
    exact String.isEmpty_iff.mp hRooted
  · have hText : r.text = "/" ++ Path.joined r.names := by
      unfold text
      rw [hRoot, if_neg (by simp)]
    rw [hText, hRoot, String.toList_append]
    exact rootOf_append (Or.inl rfl) hNoSlash
  · have hText : r.text = "//" ++ Path.joined r.names := by
      unfold text
      rw [hRoot, if_neg (by simp)]
    rw [hText, hRoot, String.toList_append]
    exact rootOf_append (Or.inr rfl) hNoSlash

/- A route is read from its text. -/
theorem IsRead.ofText_text
    (hRead : r.IsRead) :
    ofText r.text = r := by
  rcases hRead.names_text with ⟨voids, hVoids, hNames⟩
  have hVoid : voids.filter (!isVoid ·) = [] := by
    rw [List.filter_eq_nil_iff]
    intro name hName
    simp [hVoids name hName]
  have hKept : r.names.filter (!isVoid ·) = r.names := by
    rw [List.filter_eq_self]
    intro name hName
    simp [(hRead.names name hName).2]
  unfold ofText
  rw [hRead.rootOf_text, hNames, List.filter_append, hVoid, hKept,
    List.nil_append]

end Route

/- A normal form stays as it is. -/
theorem Path.normal_normal
    (text : String) :
    normal (normal text) = normal text := by
  unfold normal
  rw [(Route.isRead_ofText text).ofText_text]

end SymbolAtlas

------------------------------------------------------------
-- Names That Say Nothing
------------------------------------------------------------

namespace SymbolAtlas

namespace Path

/- The second list lacks some names that say nothing. -/
inductive Thins : List String → List String → Prop
| nil : Thins [] []
| keep {names others : List String} (name : String)
    (hRest : Thins names others) :
    Thins (name :: names) (name :: others)
| drop {names others : List String} {name : String}
    (hVoid : Route.isVoid name = true)
    (hRest : Thins names others) :
    Thins (name :: names) others

theorem Thins.append_left
    {names others : List String}
    (hThins : Thins names others)
    (front : List String) :
    Thins (front ++ names) (front ++ others) := by
  induction front with
  | nil => exact hThins
  | cons name rest ih => exact ih.keep name

theorem thins_filter
    (names : List String) :
    Thins names (names.filter (!Route.isVoid ·)) := by
  induction names with
  | nil => exact .nil
  | cons name rest ih =>
      cases hVoid : Route.isVoid name with
      | true =>
          rw [List.filter_cons_of_neg (by simp [hVoid])]
          exact ih.drop hVoid
      | false =>
          rw [List.filter_cons_of_pos (by simp [hVoid])]
          exact ih.keep name

end Path

namespace Disk

variable {d : Disk}

/- Searches go the same way when names are dropped. -/
theorem advance_of_thins
    {names others : List String}
    (hThins : Path.Thins names others)
    (place : Place) :
    (∀ found,
      d.advance true place names = .ok (.arrived found) →
        d.advance true place others = .ok (.arrived found)) ∧
    ∀ parent target rest,
      d.advance true place names =
          .ok (.detour parent target rest) →
        ∃ left, Path.Thins rest left ∧
          d.advance true place others =
            .ok (.detour parent target left) := by
  induction hThins generalizing place with
  | nil =>
      refine ⟨fun _ hArrived => hArrived, ?_⟩
      intro parent target rest hDetour
      cases hDetour
  | drop hVoid _ ih =>
      simp only [advance, hVoid, if_true]
      exact ih place
  | @keep names others name hRest ih =>
      have hEmpty : names.isEmpty = true → others = [] := by
        intro hNone
        rw [List.isEmpty_iff] at hNone
        subst hNone
        cases hRest
        rfl
      simp only [advance]
      split
      · exact ih place
      · split
        · exact ih place.dropLast
        · split
          · split
            · next hNone => simp [hEmpty hNone]
            · simp
          · split
            · next hNone => simp [hEmpty hNone]
            · simp
          · exact ih (place ++ [name])
          · simp only [Bool.not_true, Bool.and_false,
              Bool.false_eq_true, if_false]
            refine ⟨fun _ hArrived => (by cases hArrived), ?_⟩
            intro parent target rest hDetour
            cases hDetour
            exact ⟨others, hRest, rfl⟩

/-
  A search that ends somewhere ends there when names that say
  nothing are dropped. The induction is on the links left.
-/
theorem follow_of_thins
    {links : Nat}
    {place : Place}
    {names others : List String}
    {found : Found}
    (hThins : Path.Thins names others)
    (hFollow : d.follow true links place names = .ok found) :
    d.follow true links place others = .ok found := by
  induction links generalizing place names others with
  | zero =>
      unfold follow at hFollow ⊢
      cases hAdvance : d.advance true place names with
      | error fault =>
          rw [hAdvance] at hFollow
          cases hFollow
      | ok progress =>
          rw [hAdvance] at hFollow
          cases progress with
          | arrived goal =>
              rw [(advance_of_thins hThins place).1 _ hAdvance]
              exact hFollow
          | detour parent target rest => cases hFollow
  | succ links ih =>
      unfold follow at hFollow ⊢
      cases hAdvance : d.advance true place names with
      | error fault =>
          rw [hAdvance] at hFollow
          cases hFollow
      | ok progress =>
          rw [hAdvance] at hFollow
          cases progress with
          | arrived goal =>
              rw [(advance_of_thins hThins place).1 _ hAdvance]
              exact hFollow
          | detour parent target rest =>
              rcases (advance_of_thins hThins place).2 _ _ _
                  hAdvance with ⟨left, hLeft, hDetour⟩
              rw [hDetour]
              exact ih (hLeft.append_left _) hFollow

/- Names in front that say nothing are passed over. -/
theorem follow_voids_append
    {voids : List String}
    (hVoids : ∀ name ∈ voids, Route.isVoid name = true)
    (followLast : Bool)
    (links : Nat)
    (place : Place)
    (names : List String) :
    d.follow followLast links place (voids ++ names) =
      d.follow followLast links place names := by
  have hAdvance :
      d.advance followLast place (voids ++ names) =
        d.advance followLast place names := by
    induction voids with
    | nil => rfl
    | cons name rest ih =>
        simp only [List.cons_append, advance,
          hVoids name List.mem_cons_self, if_true]
        exact ih fun other hOther =>
          hVoids other (List.mem_cons_of_mem _ hOther)
  unfold follow
  rw [hAdvance]

/- The text of a route is found by following its names. -/
theorem locate_text
    {r : Route}
    (hRead : r.IsRead)
    (followLast : Bool) :
    d.locate followLast r.text =
      d.follow followLast linkLimit
        (if r.isRooted then [] else d.cwd) r.names := by
  rcases hRead.names_text with ⟨voids, hVoids, hNames⟩
  unfold locate
  rw [hRead.isRooted_text_iff, hNames, r.isEmpty_text]
  dsimp only
  rw [if_neg (by simp), follow_voids_append hVoids]

theorem locate_normal
    {path : String}
    {found : Found}
    (hLocate : d.locate true path = .ok found) :
    d.locate true (Path.normal path) = .ok found := by
  unfold Path.normal
  rw [locate_text (Route.isRead_ofText path),
    Route.isRooted_ofText]
  unfold locate at hLocate
  split at hLocate
  · cases hLocate
  · exact follow_of_thins (Path.thins_filter _) hLocate

/- Where a path leads, its normal form does. -/
theorem stat_normal
    {path : String}
    {stat : Stat}
    (hStat : d.stat path = .ok stat) :
    d.stat (Path.normal path) = .ok stat := by
  unfold Disk.stat at hStat ⊢
  cases hLocate : d.locate true path with
  | error fault =>
      rw [hLocate] at hStat
      cases hStat
  | ok found =>
      rw [hLocate] at hStat
      rw [locate_normal hLocate]
      exact hStat

end Disk

end SymbolAtlas
