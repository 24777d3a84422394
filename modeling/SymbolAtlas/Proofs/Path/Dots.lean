import Mathlib.Data.List.Induction
import SymbolAtlas.Proofs.Disk.Names
import SymbolAtlas.Search.Record

/-
  Single dots in front of a path.

  A walk drops one dot and its separator from the relative path
  of each entry it meets. That changes where the path leads if
  what follows is rooted, or if the separator is a backslash and
  so part of a name. A text that keeps its course is none of
  these, however many dots are dropped.

  Key definitions:
    * `Path.KeepsCourse`, `Path.Undots`
    * `Path.below`

  Key theorems:
    * `Path.undots_pathAlong`
    * `Disk.list_of_undots`, `Disk.stat_of_undots`
-/

------------------------------------------------------------
-- Children
------------------------------------------------------------

namespace SymbolAtlas

namespace Path

/- The path of the names below a base. -/
def below (base : String) (trail : List String) : String :=
  trail.foldl child base

theorem below_concat
    (base : String)
    (trail : List String)
    (name : String) :
    below base (trail ++ [name]) =
      child (below base trail) name := by
  simp [below]

theorem isRooted_of_not_mem
    {name : String}
    (hSlash : '/' ∉ name.toList) :
    isRooted name = false := by
  rw [← Bool.not_eq_true, isRooted_iff]
  rintro ⟨rest, hRest⟩
  exact hSlash (by simp [hRest])

theorem isRooted_of_isName
    {name : String}
    (hName : Disk.IsName name) :
    isRooted name = false :=
  isRooted_of_not_mem hName.2

/- Behind a slash a text without one is put directly. -/
theorem child_of_slash
    (before : String)
    {name : String}
    (hSlash : '/' ∉ name.toList) :
    child (before ++ "/") name = before ++ "/" ++ name := by
  unfold child
  rw [isRooted_of_not_mem hSlash, if_neg Bool.false_ne_true,
    if_pos (by simp)]

/- Behind anything else it has a slash in front. -/
theorem child_of_no_slash
    {directory name : String}
    (hSlash : '/' ∉ name.toList)
    (hSome : directory ≠ "")
    (hEnd : directory.toList.getLast? ≠ some '/') :
    child directory name = directory ++ "/" ++ name := by
  unfold child
  rw [isRooted_of_not_mem hSlash, if_neg Bool.false_ne_true,
    if_neg (by simpa using ⟨hSome, hEnd⟩)]

/- A name follows a text directly only behind a slash. -/
theorem child_cases
    (text : String)
    {name : String}
    (hName : Disk.IsName name) :
    (child text name = text ++ name ∧
        (text = "" ∨ text.toList.getLast? = some '/')) ∨
      (child text name = text ++ "/" ++ name ∧ text ≠ "" ∧
        text.toList.getLast? ≠ some '/') := by
  by_cases hEnd : text = "" ∨ text.toList.getLast? = some '/'
  · refine Or.inl ⟨?_, hEnd⟩
    unfold child
    rw [isRooted_of_isName hName, if_neg Bool.false_ne_true,
      if_pos (by simpa using hEnd)]
  · rw [not_or] at hEnd
    exact Or.inr ⟨child_of_no_slash hName.2 hEnd.1 hEnd.2, hEnd⟩

theorem child_ne_empty
    (text : String)
    {name : String}
    (hName : Disk.IsName name) :
    child text name ≠ "" := by
  have hSome := hName.ne_empty
  rcases child_cases text hName with ⟨hChild, -⟩ | ⟨hChild, -⟩
  · rw [hChild]
    simp [hSome]
  · rw [hChild]
    simp [hSome]

theorem isRooted_child_of_isName
    {text : String}
    (hSome : text ≠ "")
    {name : String}
    (hName : Disk.IsName name) :
    isRooted (child text name) = isRooted text := by
  have hFirst :
      ∀ more : String, isRooted (text ++ more) = isRooted text := by
    intro more
    unfold isRooted
    rw [String.toList_append]
    cases hText : text.toList with
    | nil => simp at hText; exact absurd hText hSome
    | cons c rest => rfl
  rcases child_cases text hName with ⟨hChild, -⟩ | ⟨hChild, -⟩
  · rw [hChild, hFirst]
  · rw [hChild, String.append_assoc, hFirst]

/- A child's text ends in its name, so in no slash. -/
theorem getLast?_child
    (text : String)
    {name : String}
    (hName : Disk.IsName name) :
    (child text name).toList.getLast? ≠ some '/' := by
  have hEnd :
      (child text name).toList.getLast? =
        name.toList.getLast? := by
    have hSome : name.toList ≠ [] := by
      simpa using hName.ne_empty
    rcases child_cases text hName with ⟨hChild, -⟩ | ⟨hChild, -⟩
    · rw [hChild, String.toList_append,
        List.getLast?_append_of_ne_nil _ hSome]
    · rw [hChild, String.toList_append,
        List.getLast?_append_of_ne_nil _ hSome]
  rw [hEnd]
  intro hSlash
  exact hName.2 (List.mem_of_getLast? hSlash)

end Path

end SymbolAtlas

------------------------------------------------------------
-- Dots in Front
------------------------------------------------------------

namespace SymbolAtlas

namespace Path

/- The first text is the second without some dots in front. -/
inductive Undots : String → String → Prop
| same (text : String) : Undots text text
| dot {text other : String}
    (hSome : text ≠ "")
    (hRelative : isRooted text = false)
    (hOther : Undots text other) :
    Undots text ("./" ++ other)

theorem Undots.ne_empty_iff
    {text other : String}
    (hUndots : Undots text other) :
    other ≠ "" ↔ text ≠ "" := by
  cases hUndots with
  | same => rfl
  | dot hSome _ _ => simp [hSome]

theorem Undots.isRooted_eq
    {text other : String}
    (hUndots : Undots text other) :
    isRooted other = isRooted text := by
  cases hUndots with
  | same => rfl
  | dot _ hRelative _ =>
      rw [hRelative]
      simp [isRooted]

theorem Undots.trans
    {first second third : String}
    (hFirst : Undots first second)
    (hSecond : Undots second third) :
    Undots first third := by
  induction hSecond with
  | same => exact hFirst
  | dot hSome hRelative _ ih =>
      apply Undots.dot (hFirst.ne_empty_iff.mp hSome) _ ih
      rw [← hFirst.isRooted_eq, hRelative]

/- What stands in front of a text stays in front. -/
theorem child_append
    (front : String)
    {text : String}
    (hSome : text ≠ "")
    {name : String}
    (hName : Disk.IsName name) :
    child (front ++ text) name = front ++ child text name := by
  have hLast :
      (front ++ text).toList.getLast? = text.toList.getLast? := by
    rw [String.toList_append]
    exact List.getLast?_append_of_ne_nil _ (by simpa using hSome)
  unfold child
  rw [isRooted_of_isName hName, hLast]
  simp only [Bool.false_eq_true, if_false, String.isEmpty_iff,
    Bool.or_eq_true, String.append_eq_empty_iff, hSome, and_false,
    false_or]
  split
  · rw [String.append_assoc]
  · simp only [String.append_assoc]

/- Going down keeps the dots in front where they are. -/
theorem Undots.child
    {text other : String}
    (hUndots : Undots text other)
    {name : String}
    (hName : Disk.IsName name) :
    Undots (Path.child text name) (Path.child other name) := by
  induction hUndots with
  | same => exact .same _
  | dot hSome hRelative hOther ih =>
      rw [child_append _ (hOther.ne_empty_iff.mpr hSome) hName]
      apply Undots.dot (child_ne_empty _ hName)
      · rw [isRooted_child_of_isName hSome hName, hRelative]
      · exact ih

end Path

end SymbolAtlas

------------------------------------------------------------
-- Texts That Keep Their Course
------------------------------------------------------------

namespace SymbolAtlas

namespace Path

/- Dropping dots uncovers neither a root nor half a name. -/
def keepsCourse : List Char → Bool
| '.' :: '/' :: rest => keepsCourse rest
| '.' :: '\\' :: _ => false
| '/' :: _ => false
| _ => true

/- The text leads to the same place without dots in front. -/
def KeepsCourse (text : String) : Prop :=
  keepsCourse text.toList = true

/- The name is no dot and backslash with something behind. -/
def IsUndotted (name : String) : Prop :=
  ¬ ['.', '\\'] <+: name.toList

theorem isUndotted_of_not_mem
    {name : String}
    (hBack : '\\' ∉ name.toList) :
    IsUndotted name := by
  rintro ⟨more, hMore⟩
  apply hBack
  rw [← hMore]
  simp

theorem keepsCourse_of_isName
    {name : String}
    (hName : Disk.IsName name)
    (hUndotted : IsUndotted name) :
    keepsCourse name.toList = true := by
  unfold IsUndotted at hUndotted
  have hSlash := hName.2
  revert hSlash hUndotted
  generalize name.toList = text
  intro hUndotted hSlash
  unfold keepsCourse
  split
  · simp at hSlash
  · exact absurd ⟨_, rfl⟩ hUndotted
  · simp at hSlash
  · rfl

/- A name behind a slash, or with nothing in front. -/
theorem keepsCourse_append
    {text name : List Char}
    (hText : keepsCourse text = true)
    (hName : keepsCourse name = true)
    (hEnd : text = [] ∨ text.getLast? = some '/') :
    keepsCourse (text ++ name) = true := by
  fun_induction keepsCourse text with
  | case1 rest ih =>
      rw [List.cons_append, List.cons_append, keepsCourse]
      apply ih hText
      cases rest with
      | nil => exact Or.inl rfl
      | cons c more => simpa using hEnd
  | case2 => cases hText
  | case3 => cases hText
  | case4 text hDot hBack hRoot =>
      cases text with
      | nil => exact hName
      | cons c rest =>
          cases rest with
          | nil =>
              have hSlash : c = '/' := by simpa using hEnd
              exact absurd (by rw [hSlash]) (hRoot [])
          | cons e more =>
              unfold keepsCourse
              split <;> simp_all

/- A name behind a slash that is put in front of it. -/
theorem keepsCourse_append_slash
    {text name : List Char}
    (hText : keepsCourse text = true)
    (hName : keepsCourse name = true)
    (hSome : text ≠ [])
    (hEnd : text.getLast? ≠ some '/') :
    keepsCourse (text ++ '/' :: name) = true := by
  fun_induction keepsCourse text with
  | case1 rest ih =>
      rw [List.cons_append, List.cons_append, keepsCourse]
      cases rest with
      | nil => exact absurd rfl hEnd
      | cons c more => exact ih hText (by simp) (by simpa using hEnd)
  | case2 => cases hText
  | case3 => cases hText
  | case4 text hDot hBack hRoot =>
      cases text with
      | nil => exact absurd rfl hSome
      | cons c rest =>
          unfold keepsCourse
          cases rest with
          | nil => split <;> simp_all
          | cons e more => split <;> simp_all

theorem KeepsCourse.child
    {text : String}
    (hText : KeepsCourse text)
    {name : String}
    (hName : Disk.IsName name)
    (hUndotted : IsUndotted name) :
    KeepsCourse (Path.child text name) := by
  have hKeeps := keepsCourse_of_isName hName hUndotted
  unfold KeepsCourse at hText ⊢
  rcases child_cases text hName with
    ⟨hChild, hEnd⟩ | ⟨hChild, hSome, hEnd⟩
  · rw [hChild, String.toList_append]
    apply keepsCourse_append hText hKeeps
    simpa using hEnd
  · rw [hChild, String.toList_append, String.toList_append,
      List.append_assoc]
    exact keepsCourse_append_slash hText hKeeps
      (by simpa using hSome) hEnd

end Path

end SymbolAtlas

------------------------------------------------------------
-- Absolute Texts
------------------------------------------------------------

namespace SymbolAtlas

namespace Path

theorem isAbsolute_append
    {text : String}
    (hAbsolute : isAbsolute text = true)
    (more : String) :
    isAbsolute (text ++ more) = true := by
  unfold isAbsolute at hAbsolute ⊢
  rw [Bool.or_eq_true] at hAbsolute ⊢
  rw [String.toList_append]
  rcases hAbsolute with hRoot | hScheme
  · left
    revert hRoot
    generalize text.toList = front
    generalize more.toList = back
    intro hRoot
    rcases front with - | ⟨c, - | ⟨e, - | ⟨f, rest⟩⟩⟩
    · cases hRoot
    · have hSeparator : isSeparator c = true := hRoot
      rcases back with - | ⟨a, - | ⟨b, others⟩⟩ <;>
        simp [startsAtRoot, hSeparator]
    · have hSeparator : isSeparator c = true := hRoot
      rcases back with - | ⟨a, others⟩ <;>
        simp [startsAtRoot, hSeparator]
    · exact hRoot
  · right
    cases hText : text.toList with
    | nil =>
        rw [hText] at hScheme
        cases hScheme
    | cons c rest =>
        rw [hText] at hScheme
        rw [List.cons_append]
        unfold startsWithScheme at hScheme ⊢
        rw [Bool.and_eq_true, List.isPrefixOf_iff_prefix]
          at hScheme ⊢
        refine ⟨hScheme.1, ?_⟩
        rw [List.dropWhile_append, if_neg]
        · exact hScheme.2.trans (List.prefix_append _ _)
        · intro hNone
          rw [List.isEmpty_iff] at hNone
          rw [hNone] at hScheme
          simpa using hScheme.2

theorem isAbsolute_child
    {text : String}
    (hAbsolute : isAbsolute text = true)
    {name : String}
    (hName : Disk.IsName name) :
    isAbsolute (child text name) = true := by
  rcases child_cases text hName with ⟨hChild, -⟩ | ⟨hChild, -⟩
  · rw [hChild]
    exact isAbsolute_append hAbsolute name
  · rw [hChild, String.append_assoc]
    exact isAbsolute_append hAbsolute _

end Path

end SymbolAtlas

------------------------------------------------------------
-- Walking Down
------------------------------------------------------------

namespace SymbolAtlas

namespace Record

/- The text under which a walk goes down a trail. -/
def pathAlong (base : String) (trail : List String) : String :=
  trail.foldl pathOf base

theorem pathAlong_concat
    (base : String)
    (trail : List String)
    (name : String) :
    pathAlong base (trail ++ [name]) =
      pathOf (pathAlong base trail) name := by
  simp [pathAlong]

end Record

namespace Path

/- One dot is dropped and nothing else changes. -/
theorem undots_pathOf
    {text name : String}
    (hName : Disk.IsName name)
    (hKeeps : KeepsCourse (child text name)) :
    Undots (Record.pathOf text name) (child text name) ∧
      KeepsCourse (Record.pathOf text name) := by
  have hEnd := getLast?_child text hName
  unfold Record.pathOf
  dsimp only
  generalize child text name = path at hKeeps hEnd ⊢
  split
  · exact ⟨.same _, hKeeps⟩
  · unfold Record.withoutDot
    split
    · next c rest hPath =>
        unfold KeepsCourse at hKeeps
        rw [hPath] at hKeeps hEnd
        split
        · next hSeparator =>
            have hSlash : c = '/' := by
              by_contra hNot
              have hBack : c = '\\' := by
                simpa [isSeparator, hNot] using hSeparator
              rw [hBack] at hKeeps
              cases hKeeps
            subst hSlash
            rw [keepsCourse] at hKeeps
            have hText : path = "./" ++ String.ofList rest := by
              apply String.toList_injective
              simp [hPath]
            refine ⟨?_, by simpa [KeepsCourse] using hKeeps⟩
            rw [hText]
            refine .dot ?_ ?_ (.same _)
            · intro hNone
              have hRest : rest = [] := by simpa using hNone
              rw [hRest] at hEnd
              exact hEnd rfl
            · cases rest with
              | nil => rfl
              | cons e more =>
                  by_contra hRooted
                  have hFirst : e = '/' := by
                    simpa [isRooted] using hRooted
                  rw [hFirst] at hKeeps
                  cases hKeeps
        · exact ⟨.same _, by rw [KeepsCourse, hPath]; exact hKeeps⟩
    · exact ⟨.same _, hKeeps⟩

/- The texts of a walk lead where the names below its base do. -/
theorem undots_pathAlong
    {base : String}
    (hBase : isAbsolute base = true ∨ KeepsCourse base)
    {trail : List String}
    (hNames : ∀ name ∈ trail, Disk.IsName name)
    (hUndotted : ∀ name ∈ trail, IsUndotted name) :
    Undots (Record.pathAlong base trail) (below base trail) := by
  rcases hBase with hAbsolute | hKeeps
  · -- No dots are dropped from an absolute text.
    have hSame :
        Record.pathAlong base trail = below base trail ∧
          isAbsolute (below base trail) = true := by
      induction trail using List.reverseRecOn with
      | nil => exact ⟨rfl, hAbsolute⟩
      | append_singleton trail name ih =>
          rw [List.forall_mem_append, List.forall_mem_singleton]
            at hNames hUndotted
          rcases ih hNames.1 hUndotted.1 with ⟨hTexts, hTrail⟩
          rw [Record.pathAlong_concat, below_concat, hTexts]
          refine ⟨?_, isAbsolute_child hTrail hNames.2⟩
          unfold Record.pathOf
          rw [if_pos hTrail]
    rw [hSame.1]
    exact .same _
  · have hBoth :
        Undots (Record.pathAlong base trail) (below base trail) ∧
          KeepsCourse (Record.pathAlong base trail) := by
      induction trail using List.reverseRecOn with
      | nil => exact ⟨.same _, hKeeps⟩
      | append_singleton trail name ih =>
          rw [List.forall_mem_append, List.forall_mem_singleton]
            at hNames hUndotted
          rcases ih hNames.1 hUndotted.1 with ⟨hTexts, hTrail⟩
          rw [Record.pathAlong_concat, below_concat]
          rcases undots_pathOf hNames.2
              (hTrail.child hNames.2 hUndotted.2) with
            ⟨hDown, hCourse⟩
          exact ⟨hDown.trans (hTexts.child hNames.2), hCourse⟩
    exact hBoth.1

end Path

end SymbolAtlas

------------------------------------------------------------
-- The Same Files
------------------------------------------------------------

namespace SymbolAtlas

namespace Path

theorem names_dot_append
    (text : String) :
    names ("./" ++ text) = "." :: names text := by
  have hChars : ("./" ++ text).toList = '.' :: '/' :: text.toList := by
    simp
  unfold names segments
  rw [hChars, List.splitOn_cons_eq_if_modifyHead,
    List.splitOn_cons_eq_if_modifyHead]
  rfl

end Path

namespace Disk

variable {d : Disk} {text other : String}

theorem locate_of_undots
    (hUndots : Path.Undots text other)
    (followLast : Bool) :
    d.locate followLast other = d.locate followLast text := by
  induction hUndots with
  | same => rfl
  | @dot other hSome hRelative hOther ih =>
      rw [← ih]
      have hOtherSome : ¬ other.isEmpty = true := by
        simpa using hOther.ne_empty_iff.mpr hSome
      have hOtherRelative := hOther.isRooted_eq.trans hRelative
      have hDots : Path.isRooted ("./" ++ other) = false := by
        simp [Path.isRooted]
      have hVoid : ∀ name ∈ ["."], Route.isVoid name = true := by
        decide
      have hFollow :=
        follow_voids_append (d := d) hVoid followLast linkLimit
          d.cwd (Path.names other)
      unfold locate
      rw [hOtherRelative, hDots, Path.names_dot_append,
        if_neg (by simp), if_neg hOtherSome]
      exact hFollow

theorem absoluteText_of_undots
    (hUndots : Path.Undots text other) :
    d.absoluteText other = d.absoluteText text := by
  induction hUndots with
  | same => rfl
  | @dot other hSome hRelative hOther ih =>
      rw [← ih]
      have hOtherRelative := hOther.isRooted_eq.trans hRelative
      have hDots : Path.isRooted ("./" ++ other) = false := by
        simp [Path.isRooted]
      unfold absoluteText
      rw [hOtherRelative, hDots, Path.names_dot_append]
      rfl

theorem stat_of_undots
    (hUndots : Path.Undots text other) :
    d.stat other = d.stat text := by
  unfold stat
  rw [locate_of_undots hUndots]

theorem list_of_undots
    (hUndots : Path.Undots text other) :
    d.list other = d.list text := by
  unfold list
  rw [locate_of_undots hUndots, absoluteText_of_undots hUndots]

end Disk

end SymbolAtlas
