import SymbolAtlas.Proofs.Disk.LinkFree
import SymbolAtlas.Proofs.Disk.Outside

/-
  Real paths lead where the paths lead.

  A search that ends somewhere follows a fixed number of links.
  The target of a link is left before the search goes on, so no
  link is met again while it is open, and opening links one by
  one comes to the same place. The errands that are left and the
  links that have not been opened bound what is still to be done.

  Key definitions:
    * `Disk.Leads`
    * `Disk.IsHonest`, `Disk.OpenAbove`, `Disk.toDo`
    * `Disk.LeadsTo`, `Disk.IsProper`
  Key theorems:
    * `Disk.leads_of_follow`, `Disk.Leads.unique`
    * `Disk.Leads.runErrands_eq`
    * `Disk.LeadsTo.resolve_eq`
    * `Disk.normal_of_resolve`
-/

------------------------------------------------------------
-- Following Names to the End
------------------------------------------------------------

namespace SymbolAtlas

namespace Disk

/- The place where the search for a link's target starts. -/
def turn (above : Place) (target : String) : Place :=
  if Path.isRooted target then [] else above

/-
  Names lead from a place to a goal, and so many links are
  followed on the way.
-/
inductive Leads (d : Disk) :
    Place → List String → Place → Nat → Prop
| nil (start : Place) :
    Leads d start [] start 0
| void {start goal : Place} {name : String} {rest : List String}
    {links : Nat}
    (hVoid : Route.isVoid name = true)
    (hRest : Leads d start rest goal links) :
    Leads d start (name :: rest) goal links
| up {start goal : Place} {rest : List String} {links : Nat}
    (hRest : Leads d start.dropLast rest goal links) :
    Leads d start (".." :: rest) goal links
| step {start goal : Place} {name : String} {rest : List String}
    {links : Nat}
    (hName : IsPlain name)
    (hNode :
      ∀ target, d.node? (start ++ [name]) ≠ some (.link target))
    (hRest : Leads d (start ++ [name]) rest goal links) :
    Leads d start (name :: rest) goal links
| turn {start middle goal : Place} {name target : String}
    {rest : List String} {inside links : Nat}
    (hName : IsPlain name)
    (hNode : d.node? (start ++ [name]) = some (.link target))
    (hTarget :
      Leads d (turn start target) (Path.names target) middle
        inside)
    (hRest : Leads d middle rest goal links) :
    Leads d start (name :: rest) goal (inside + links + 1)

variable {d : Disk} {start goal other : Place}
variable {names : List String} {links more : Nat}

/- There is one goal, and one number of links. -/
theorem Leads.unique
    (hLeads : d.Leads start names goal links)
    (hOther : d.Leads start names other more) :
    goal = other ∧ links = more := by
  induction hLeads generalizing other more with
  | nil =>
      cases hOther
      exact ⟨rfl, rfl⟩
  | void hVoid _ ih =>
      cases hOther with
      | void _ hRest => exact ih hRest
      | up => cases hVoid
      | step hName => rw [hName.1] at hVoid; cases hVoid
      | turn hName => rw [hName.1] at hVoid; cases hVoid
  | up _ ih =>
      cases hOther with
      | void hVoid => cases hVoid
      | up hRest => exact ih hRest
      | step hName => exact absurd rfl hName.2
      | turn hName => exact absurd rfl hName.2
  | step hName hNode _ ih =>
      cases hOther with
      | void hVoid => rw [hName.1] at hVoid; cases hVoid
      | up => exact absurd rfl hName.2
      | step _ _ hRest => exact ih hRest
      | turn _ hLink => exact absurd hLink (hNode _)
  | turn hName hNode _ _ ihTarget ihRest =>
      cases hOther with
      | void hVoid => rw [hName.1] at hVoid; cases hVoid
      | up => exact absurd rfl hName.2
      | step _ hNone => exact absurd hNode (hNone _)
      | turn _ hLink hTarget hRest =>
          rw [hNode] at hLink
          cases hLink
          rcases ihTarget hTarget with ⟨rfl, rfl⟩
          rcases ihRest hRest with ⟨rfl, rfl⟩
          exact ⟨rfl, rfl⟩

/- The first names lead somewhere, and the others on from there. -/
theorem Leads.split
    {front back : List String}
    (hLeads : d.Leads start (front ++ back) goal links) :
    ∃ middle first second,
      d.Leads start front middle first ∧
      d.Leads middle back goal second ∧
      links = first + second := by
  induction front generalizing start links with
  | nil => exact ⟨start, 0, links, .nil start, hLeads, by simp⟩
  | cons name rest ih =>
      cases hLeads with
      | void hVoid hRest =>
          rcases ih hRest with
            ⟨middle, first, second, hFirst, hSecond, hSum⟩
          exact ⟨middle, first, second, hFirst.void hVoid, hSecond,
            hSum⟩
      | up hRest =>
          rcases ih hRest with
            ⟨middle, first, second, hFirst, hSecond, hSum⟩
          exact ⟨middle, first, second, hFirst.up, hSecond, hSum⟩
      | step hName hNode hRest =>
          rcases ih hRest with
            ⟨middle, first, second, hFirst, hSecond, hSum⟩
          exact ⟨middle, first, second, hFirst.step hName hNode,
            hSecond, hSum⟩
      | turn hName hNode hTarget hRest =>
          rcases ih hRest with
            ⟨middle, first, second, hFirst, hSecond, rfl⟩
          exact ⟨middle, _, second,
            .turn hName hNode hTarget hFirst, hSecond, by omega⟩

/-
  What a search comes to before a link, and what it needs to
  come to behind one.
-/
theorem leads_of_advance :
    (∀ found,
      d.advance true start names = .ok (.arrived found) →
        d.Leads start names found.place 0) ∧
    ∀ above target rest,
      d.advance true start names =
          .ok (.detour above target rest) →
        ∀ goal links,
          d.Leads (turn above target)
              (Path.names target ++ rest) goal links →
            d.Leads start names goal (links + 1) := by
  induction names generalizing start with
  | nil =>
      refine ⟨?_, fun _ _ _ hAdvance => by cases hAdvance⟩
      intro found hAdvance
      cases hAdvance
      exact .nil start
  | cons name rest ih =>
      simp only [advance]
      by_cases hVoid : Route.isVoid name = true
      · simp only [if_pos hVoid]
        rcases @ih start with ⟨hArrived, hDetour⟩
        exact ⟨fun found hAdvance =>
            (hArrived found hAdvance).void hVoid,
          fun above target left hAdvance goal links hLeads =>
            (hDetour above target left hAdvance goal links
              hLeads).void hVoid⟩
      by_cases hUp : name = ".."
      · subst hUp
        simp only [if_neg hVoid, if_true]
        rcases @ih start.dropLast with
          ⟨hArrived, hDetour⟩
        exact ⟨fun found hAdvance =>
            (hArrived found hAdvance).up,
          fun above target left hAdvance goal links hLeads =>
            (hDetour above target left hAdvance goal links
              hLeads).up⟩
      have hName : IsPlain name := ⟨by simpa using hVoid, hUp⟩
      simp only [if_neg hVoid, if_neg hUp]
      have hEnd :
          (∀ target,
            d.node? (start ++ [name]) ≠ some (.link target)) →
          rest = [] →
          d.Leads start (name :: rest) (start ++ [name]) 0 := by
        rintro hNode rfl
        exact .step hName hNode (.nil _)
      cases hNode : d.node? (start ++ [name]) with
      | none =>
          dsimp only
          split
          · next hLast =>
              refine ⟨?_, fun _ _ _ hAdvance => by cases hAdvance⟩
              intro found hAdvance
              cases hAdvance
              exact hEnd (by simp [hNode]) (by simpa using hLast)
          · exact ⟨fun _ hAdvance => (by cases hAdvance),
              fun _ _ _ hAdvance => by cases hAdvance⟩
      | some node =>
          cases node with
          | file content mtime =>
              dsimp only
              split
              · next hLast =>
                  refine ⟨?_, fun _ _ _ hAdvance => by
                    cases hAdvance⟩
                  intro found hAdvance
                  cases hAdvance
                  exact hEnd (by simp [hNode])
                    (by simpa using hLast)
              · exact ⟨fun _ hAdvance => (by cases hAdvance),
                  fun _ _ _ hAdvance => by cases hAdvance⟩
          | dir mtime =>
              rcases @ih (start ++ [name]) with
                ⟨hArrived, hDetour⟩
              exact ⟨fun found hAdvance =>
                  (hArrived found hAdvance).step hName
                    (by simp [hNode]),
                fun above target left hAdvance goal links hLeads =>
                  (hDetour above target left hAdvance goal links
                    hLeads).step hName (by simp [hNode])⟩
          | link target =>
              simp only [Bool.not_true, Bool.and_false,
                Bool.false_eq_true, if_false]
              refine ⟨fun _ hAdvance => (by cases hAdvance), ?_⟩
              intro above other left hAdvance goal links hLeads
              cases hAdvance
              rcases hLeads.split with
                ⟨middle, first, second, hFirst, hSecond, rfl⟩
              exact .turn hName hNode hFirst hSecond

/- A search that ends somewhere follows so many links. -/
theorem leads_of_follow
    {limit : Nat}
    {found : Found}
    (hFollow : d.follow true limit start names = .ok found) :
    ∃ links,
      links ≤ limit ∧ d.Leads start names found.place links := by
  induction limit generalizing start names with
  | zero =>
      unfold follow at hFollow
      split at hFollow
      · cases hFollow
      · next hAdvance =>
          cases hFollow
          exact ⟨0, Nat.le_refl _, leads_of_advance.1 _ hAdvance⟩
      · cases hFollow
  | succ limit ih =>
      unfold follow at hFollow
      split at hFollow
      · cases hFollow
      · next hAdvance =>
          cases hFollow
          exact ⟨0, Nat.zero_le _, leads_of_advance.1 _ hAdvance⟩
      · next hAdvance =>
          rcases ih hFollow with ⟨links, hLinks, hLeads⟩
          exact ⟨links + 1, Nat.succ_le_succ hLinks,
            leads_of_advance.2 _ _ _ hAdvance _ _ hLeads⟩

end Disk

end SymbolAtlas

------------------------------------------------------------
-- Opening Links One by One
------------------------------------------------------------

namespace SymbolAtlas

namespace Disk

/- What is known of a link is where its target leads. -/
def IsHonest (d : Disk) (known : List (Place × Place)) : Prop :=
  ∀ link real target,
    known.lookup link = some real →
    d.node? link = some (.link target) →
    ∃ links,
      d.Leads (turn link.dropLast target) (Path.names target) real
        links

/- The target of a link that is open takes as many links. -/
def OpenAbove
    (d : Disk)
    (links : Nat)
    (errands : List Errand) : Prop :=
  ∀ link target,
    isOpen link errands = true →
    d.node? link = some (.link target) →
    ∃ real inside,
      links ≤ inside ∧
      d.Leads (turn link.dropLast target) (Path.names target) real
        inside

/- The link is known or open. -/
def isMet
    (known : List (Place × Place))
    (errands : List Errand)
    (link : Place) : Bool :=
  (known.lookup link).isSome || isOpen link errands

/-
  The errands that are left, and those that links can still add
  that have not been met.
-/
def toDo
    (d : Disk)
    (known : List (Place × Place))
    (errands : List Errand) : Nat :=
  errands.length +
    errandSum (d.nodes.filter (!isMet known errands ·.1))

variable {d : Disk} {start goal link : Place}
variable {names : List String} {links : Nat}
variable {known : List (Place × Place)} {rest : List Errand}

@[simp] theorem isOpen_name
    (name : String) :
    isOpen link (.name name :: rest) = isOpen link rest :=
  rfl

@[simp] theorem isOpen_names :
    isOpen link (names.map .name ++ rest) = isOpen link rest := by
  induction names with
  | nil => rfl
  | cons name others ih => exact ih

@[simp] theorem isOpen_leave
    (other : Place) :
    isOpen link (.leave other :: rest) =
      (link == other || isOpen link rest) := by
  have hSame :
      (Errand.leave link == Errand.leave other) =
        (link == other) := by
    rw [Bool.eq_iff_iff, beq_iff_eq, beq_iff_eq,
      Errand.leave.injEq]
  unfold isOpen
  rw [List.contains_cons, hSame]

theorem isMet_leave
    (other : Place) :
    isMet known (.leave other :: rest) link =
      (link == other || isMet known rest link) := by
  unfold isMet
  rw [isOpen_leave, Bool.or_left_comm]

theorem isMet_cons
    (other real : Place) :
    isMet ((other, real) :: known) rest link =
      (link == other || isMet known rest link) := by
  unfold isMet
  rw [List.lookup_cons]
  cases link == other with
  | true => rfl
  | false => rfl

theorem IsHonest.cons
    (hHonest : d.IsHonest known)
    {real : Place}
    {target : String}
    (hNode : d.node? link = some (.link target))
    (hLeads :
      d.Leads (turn link.dropLast target) (Path.names target) real
        links) :
    d.IsHonest ((link, real) :: known) := by
  intro other place text hKnown hOther
  rw [List.lookup_cons] at hKnown
  split at hKnown
  · next hSame =>
      cases hKnown
      rw [eq_of_beq hSame, hNode] at hOther
      cases hOther
      rw [eq_of_beq hSame]
      exact ⟨links, hLeads⟩
  · exact hHonest other place text hKnown hOther

theorem OpenAbove.mono
    {less : Nat}
    (hAbove : d.OpenAbove links rest)
    (hLess : less ≤ links) :
    d.OpenAbove less rest := by
  intro other target hOpen hNode
  rcases hAbove other target hOpen hNode with
    ⟨real, inside, hMore, hLeads⟩
  exact ⟨real, inside, hLess.trans hMore, hLeads⟩

theorem errandSum_filter_le
    {keep less : Place × Node → Bool}
    (hLess : ∀ entry, less entry = true → keep entry = true)
    (nodes : List (Place × Node)) :
    errandSum (nodes.filter less) ≤
      errandSum (nodes.filter keep) := by
  induction nodes with
  | nil => exact Nat.le_refl _
  | cons entry rest ih =>
      rw [List.filter_cons, List.filter_cons]
      split
      · next hEntry =>
          rw [if_pos (hLess entry hEntry), errandSum_cons,
            errandSum_cons]
          omega
      · split
        · rw [errandSum_cons]
          omega
        · exact ih

/- An entry that is kept no more takes its errands with it. -/
theorem errandSum_filter_add_le
    {keep less : Place × Node → Bool}
    (hLess : ∀ entry, less entry = true → keep entry = true)
    {nodes : List (Place × Node)}
    {entry : Place × Node}
    (hMem : entry ∈ nodes)
    (hKept : keep entry = true)
    (hGone : less entry = false) :
    errandCount entry.2 + errandSum (nodes.filter less) ≤
      errandSum (nodes.filter keep) := by
  induction nodes with
  | nil => cases hMem
  | cons first rest ih =>
      have hRest := errandSum_filter_le hLess rest
      rcases List.mem_cons.mp hMem with rfl | hIn
      · rw [List.filter_cons_of_neg (by simp [hGone]),
          List.filter_cons_of_pos hKept, errandSum_cons]
        omega
      · have hTail := ih hIn
        rw [List.filter_cons, List.filter_cons]
        split
        · next hFirst =>
            rw [if_pos (hLess first hFirst), errandSum_cons,
              errandSum_cons]
            omega
        · split
          · rw [errandSum_cons]
            omega
          · exact hTail

theorem toDo_name
    (name : String) :
    d.toDo known (.name name :: rest) = d.toDo known rest + 1 := by
  unfold toDo isMet
  simp only [isOpen_name, List.length_cons]
  omega

theorem toDo_leave
    (other real : Place) :
    d.toDo known (.leave other :: rest) =
      d.toDo ((other, real) :: known) rest + 1 := by
  unfold toDo
  simp only [isMet_leave, isMet_cons, List.length_cons]
  omega

/- Opening a link adds no more than it takes. -/
theorem toDo_open
    {target : String}
    (hSome : link ≠ [])
    (hNode : d.node? link = some (.link target))
    (hNew : isMet known rest link = false) :
    d.toDo known
        ((Path.names target).map .name ++ .leave link :: rest) ≤
      d.toDo known rest := by
  have hSum :
      errandCount (.link target) +
          errandSum (d.nodes.filter fun entry =>
            !(entry.1 == link || isMet known rest entry.1)) ≤
        errandSum (d.nodes.filter (!isMet known rest ·.1)) := by
    apply errandSum_filter_add_le ?_
      (mem_nodes_of_node? hSome hNode)
    · rw [hNew]
      rfl
    · simp
    · intro entry hLess
      rw [Bool.not_or, Bool.and_eq_true] at hLess
      exact hLess.2
  have hMet :
      ∀ other,
        isMet known
            ((Path.names target).map .name ++ .leave link :: rest)
            other =
          (other == link || isMet known rest other) := by
    intro other
    rw [← isMet_leave]
    unfold isMet
    rw [isOpen_names]
  unfold toDo
  simp only [hMet, List.length_append, List.length_map,
    List.length_cons]
  unfold errandCount at hSum
  dsimp only at hSum
  omega

end Disk

end SymbolAtlas

------------------------------------------------------------
-- Errands That End
------------------------------------------------------------

namespace SymbolAtlas

namespace Disk

variable {d : Disk} {start goal : Place}
variable {names : List String} {links : Nat}

section Errands

variable {fuel : Nat} {known : List (Place × Place)}
variable {name target : String} {rest : List Errand}

theorem runErrands_void
    (hVoid : Route.isVoid name = true) :
    d.runErrands (fuel + 1) known start (.name name :: rest) =
      d.runErrands fuel known start rest := by
  rw [runErrands, if_pos hVoid]

theorem runErrands_up :
    d.runErrands (fuel + 1) known start (.name ".." :: rest) =
      d.runErrands fuel known start.dropLast rest := by
  rw [runErrands, if_neg (by decide), if_pos rfl]

theorem runErrands_step
    (hName : IsPlain name)
    (hNode :
      ∀ target,
        d.node? (start ++ [name]) ≠ some (.link target)) :
    d.runErrands (fuel + 1) known start (.name name :: rest) =
      d.runErrands fuel known (start ++ [name]) rest := by
  rw [runErrands, if_neg (by simp [hName.1]), if_neg hName.2]
  dsimp only
  split
  · next target hLink => exact absurd hLink (hNode target)
  · rfl

theorem runErrands_known
    {real : Place}
    (hName : IsPlain name)
    (hNode : d.node? (start ++ [name]) = some (.link target))
    (hKnown : known.lookup (start ++ [name]) = some real) :
    d.runErrands (fuel + 1) known start (.name name :: rest) =
      d.runErrands fuel known real rest := by
  rw [runErrands, if_neg (by simp [hName.1]), if_neg hName.2]
  dsimp only
  rw [hNode, hKnown]

theorem runErrands_open
    (hName : IsPlain name)
    (hNode : d.node? (start ++ [name]) = some (.link target))
    (hUnknown : known.lookup (start ++ [name]) = none)
    (hClosed : isOpen (start ++ [name]) rest = false) :
    d.runErrands (fuel + 1) known start (.name name :: rest) =
      d.runErrands fuel known (turn start target)
        ((Path.names target).map .name ++
          .leave (start ++ [name]) :: rest) := by
  rw [runErrands, if_neg (by simp [hName.1]), if_neg hName.2]
  dsimp only
  rw [hNode, hUnknown, hClosed]
  rfl

theorem exists_fuel_of_name
    (hFuel : d.toDo known (.name name :: rest) < fuel) :
    ∃ left, fuel = left + 1 ∧ d.toDo known rest < left := by
  rw [toDo_name] at hFuel
  exact ⟨fuel - 1, by omega, by omega⟩

theorem exists_fuel_of_leave
    {link : Place}
    (hFuel : d.toDo known (.leave link :: rest) < fuel)
    (real : Place) :
    ∃ left,
      fuel = left + 1 ∧
      d.toDo ((link, real) :: known) rest < left := by
  rw [toDo_leave _ real] at hFuel
  exact ⟨fuel - 1, by omega, by omega⟩

/- A link whose target follows fewer links is not open. -/
theorem OpenAbove.isOpen_eq_false
    (hAbove : d.OpenAbove links rest)
    {link : Place}
    {inside : Nat}
    (hNode : d.node? link = some (.link target))
    (hTarget :
      d.Leads (turn link.dropLast target) (Path.names target)
        goal inside)
    (hFewer : inside < links) :
    isOpen link rest = false := by
  by_contra hOpen
  rcases hAbove _ _ (by simpa using hOpen) hNode with
    ⟨_, other, hMore, hOther⟩
  have hCount := (hOther.unique hTarget).2
  omega

/- Behind the errands inside a link, the link is open too. -/
theorem OpenAbove.leave
    (hAbove : d.OpenAbove links rest)
    {link : Place}
    {inside : Nat}
    (hNode : d.node? link = some (.link target))
    (hTarget :
      d.Leads (turn link.dropLast target) (Path.names target)
        goal inside)
    (hFewer : inside < links) :
    d.OpenAbove inside (.leave link :: rest) := by
  intro other text hOpen hLink
  rw [isOpen_leave, Bool.or_eq_true, beq_iff_eq] at hOpen
  rcases hOpen with rfl | hOpen
  · rw [hNode] at hLink
    cases hLink
    exact ⟨goal, inside, Nat.le_refl _, hTarget⟩
  · rcases hAbove other text hOpen hLink with
      ⟨real, more, hMore, hReal⟩
    exact ⟨real, more, by omega, hReal⟩

theorem OpenAbove.append_names
    (hAbove : d.OpenAbove links rest)
    (others : List String) :
    d.OpenAbove links (others.map .name ++ rest) := by
  intro link target hOpen
  rw [isOpen_names] at hOpen
  exact hAbove link target hOpen

end Errands

/-
  Names that lead somewhere are errands that come there, with
  whatever is left to be done.
-/
theorem Leads.runErrands_eq
    (hLeads : d.Leads start names goal links)
    {fuel : Nat}
    {known : List (Place × Place)}
    {rest : List Errand}
    (hHonest : d.IsHonest known)
    (hAbove : d.OpenAbove links rest)
    (hFuel : d.toDo known (names.map .name ++ rest) < fuel) :
    ∃ left more,
      d.IsHonest more ∧
      d.toDo more rest < left ∧
      d.runErrands fuel known start (names.map .name ++ rest) =
        d.runErrands left more goal rest := by
  induction hLeads generalizing fuel known rest with
  | nil start => exact ⟨fuel, known, hHonest, hFuel, rfl⟩
  | void hVoid _ ih =>
      rcases exists_fuel_of_name hFuel with ⟨fuel, rfl, hLess⟩
      rw [List.map_cons, List.cons_append, runErrands_void hVoid]
      exact ih hHonest hAbove hLess
  | up _ ih =>
      rcases exists_fuel_of_name hFuel with ⟨fuel, rfl, hLess⟩
      rw [List.map_cons, List.cons_append, runErrands_up]
      exact ih hHonest hAbove hLess
  | step hName hNode _ ih =>
      rcases exists_fuel_of_name hFuel with ⟨fuel, rfl, hLess⟩
      rw [List.map_cons, List.cons_append,
        runErrands_step hName hNode]
      exact ih hHonest hAbove hLess
  | @turn start middle goal name target others inside links hName
      hNode hTarget hRest ihTarget ihRest =>
      rcases exists_fuel_of_name hFuel with ⟨fuel, rfl, hLess⟩
      rw [List.map_cons, List.cons_append]
      have hLater := hAbove.mono (show links ≤ _ by omega)
      have hSelf :
          d.Leads
            (Disk.turn (start ++ [name]).dropLast target)
            (Path.names target) middle inside := by
        rw [List.dropLast_concat]
        exact hTarget
      cases hKnown : known.lookup (start ++ [name]) with
      | some real =>
          rcases hHonest _ _ _ hKnown hNode with ⟨_, hReal⟩
          rw [runErrands_known hName hNode hKnown,
            (hReal.unique hSelf).1]
          exact ihRest hHonest hLater hLess
      | none =>
          -- While a link is open fewer links are followed.
          have hBehind := hAbove.append_names others
          have hFewer : inside < inside + links + 1 := by omega
          have hClosed :=
            hBehind.isOpen_eq_false hNode hSelf hFewer
          have hNew :
              isMet known (others.map .name ++ rest)
                (start ++ [name]) = false := by
            unfold isMet
            rw [hKnown, hClosed]
            rfl
          have hEnough := Nat.lt_of_le_of_lt
            (toDo_open (by simp) hNode hNew) hLess
          rcases ihTarget hHonest
              (hBehind.leave hNode hSelf hFewer) hEnough with
            ⟨left, more, hMore, hLeft, hRun⟩
          rcases exists_fuel_of_leave hLeft middle with
            ⟨left, rfl, hStill⟩
          rw [runErrands_open hName hNode hKnown hClosed, hRun,
            runErrands]
          exact ihRest (hMore.cons hNode hSelf) hLater hStill

end Disk

end SymbolAtlas

------------------------------------------------------------
-- Real Paths of What Exists
------------------------------------------------------------

namespace SymbolAtlas

namespace Disk

variable {d : Disk} {place start : Place}

/- Every place above a node is a directory. -/
theorem IsTree.descends_above
    (hTree : d.IsTree)
    {names : List String}
    (hNode : d.node? (place ++ names) ≠ none)
    (hSome : names ≠ []) :
    wayAt (d.node? place) = .descends := by
  induction names using List.reverseRecOn with
  | nil => exact absurd rfl hSome
  | append_singleton front name ih =>
      rw [← List.append_assoc] at hNode
      have hFront := hTree.parents _ _ hNode
      by_cases hNil : front = []
      · subst hNil
        simpa using hFront
      · refine ih ?_ hNil
        intro hNone
        rw [hNone] at hFront
        cases hFront

/- The names of a place lead to what stands there. -/
theorem IsTree.advance_eq
    (hTree : d.IsTree)
    {names : List String}
    {node : Node}
    (hNames : ∀ name ∈ names, IsPlain name)
    (hNode : d.node? (start ++ names) = some node)
    (hLink : node.isLink = false) :
    d.advance true start names =
      .ok (.arrived ⟨start ++ names, some node⟩) := by
  induction names generalizing start with
  | nil =>
      rw [List.append_nil] at hNode ⊢
      rw [advance, hNode]
  | cons name rest ih =>
      have hName := hNames name List.mem_cons_self
      have hPlace :
          start ++ name :: rest = start ++ [name] ++ rest := by
        simp
      rw [hPlace] at hNode ⊢
      simp only [advance, hName.1, Bool.false_eq_true, if_false,
        if_neg hName.2]
      by_cases hRest : rest = []
      · subst hRest
        rw [List.append_nil] at hNode ⊢
        rw [hNode]
        cases node with
        | file content mtime => rfl
        | dir mtime => simp only [advance, hNode]
        | link target => cases hLink
      · have hSome : d.node? (start ++ [name] ++ rest) ≠ none := by
          rw [hNode]
          simp
        have hDescends := hTree.descends_above hSome hRest
        rcases dir_of_descends hDescends with ⟨mtime, hDir⟩
        rw [hDir]
        refine ih (fun other hOther => ?_) hNode
        exact hNames other (List.mem_cons_of_mem _ hOther)

theorem text_of_place
    (place : Place) :
    (⟨"/", place⟩ : Route).text = textOf place := by
  unfold Route.text textOf
  simp

/- All names of a place that is taken are names. -/
theorem IsSound.isName_of_node
    (hSound : d.IsSound)
    {node : Node}
    (hNode : d.node? place = some node) :
    ∀ name ∈ place, IsName name :=
  fun name hName =>
    hSound.names _
      (mem_nodes_of_node? (List.ne_nil_of_mem hName) hNode) name
      hName

theorem isRead_of_isName
    (hNames : ∀ name ∈ place, IsName name) :
    (⟨"/", place⟩ : Route).IsRead where
  roots := .inr (.inl rfl)
  names name hName :=
    ⟨(hNames name hName).2, (hNames name hName).1.1⟩

/- The text of a place leads to it. -/
theorem locate_textOf
    (hTree : d.IsTree)
    (hSound : d.IsSound)
    {node : Node}
    (hNode : d.node? place = some node)
    (hLink : node.isLink = false) :
    d.locate true (textOf place) = .ok ⟨place, some node⟩ := by
  have hNames := hSound.isName_of_node hNode
  have hAdvance :
      d.advance true [] place =
        .ok (.arrived ⟨[] ++ place, some node⟩) :=
    hTree.advance_eq (fun name hName => (hNames name hName).1)
      hNode hLink
  rw [← text_of_place, locate_text (isRead_of_isName hNames),
    if_pos (by rfl), follow, hAdvance]
  rfl

/- A file or a directory stands where the path leads. -/
def LeadsTo (d : Disk) (path : String) (place : Place) : Prop :=
  ∃ node,
    d.locate true path = .ok ⟨place, some node⟩ ∧
    node.isLink = false

variable {path : String}

theorem LeadsTo.unique
    {other : Place}
    (hPlace : d.LeadsTo path place)
    (hOther : d.LeadsTo path other) :
    place = other := by
  rcases hPlace with ⟨node, hLocate, -⟩
  rcases hOther with ⟨otherNode, hLocateOther, -⟩
  rw [hLocate] at hLocateOther
  cases hLocateOther
  rfl

theorem LeadsTo.isName
    (hSound : d.IsSound)
    (hPlace : d.LeadsTo path place) :
    ∀ name ∈ place, IsName name := by
  rcases hPlace with ⟨node, hLocate, -⟩
  exact hSound.isName_of_node (node_of_locate hLocate).symm

/- What exists has a place. -/
theorem exists_leadsTo_of_stat
    {stat : Stat}
    (hStat : d.stat path = .ok stat) :
    ∃ place, d.LeadsTo path place := by
  unfold Disk.stat at hStat
  cases hLocate : d.locate true path with
  | error fault =>
      rw [hLocate] at hStat
      cases hStat
  | ok found =>
      rcases found with ⟨place, node⟩
      rw [hLocate] at hStat
      dsimp only at hStat
      split at hStat
      · exact ⟨place, _, hLocate, rfl⟩
      · exact ⟨place, _, hLocate, rfl⟩
      · cases hStat

/- The real path of what exists is the text of its place. -/
theorem LeadsTo.resolve_eq
    (hTree : d.IsTree)
    (hSound : d.IsSound)
    (hPlace : d.LeadsTo path place) :
    d.resolve path = .ok (textOf place) := by
  rcases hPlace with ⟨node, hLocate, hLink⟩
  have hNode := node_of_locate hLocate
  unfold locate at hLocate
  split at hLocate
  · cases hLocate
  dsimp only at hLocate
  have hFollow := follow_of_thins
    (Path.thins_filter (Path.names path)) hLocate
  rcases leads_of_follow hFollow with ⟨links, -, hLeads⟩
  have hFuel :
      d.toDo []
          ((Route.ofText path).names.map .name ++ []) <
        (Route.ofText path).names.length + d.linkNames + 1 := by
    have hSum :
        errandSum (d.nodes.filter fun entry =>
            !isMet [] ((Route.ofText path).names.map .name ++ [])
              entry.1) ≤
          errandSum (d.nodes.filter fun _ => true) :=
      errandSum_filter_le (fun _ _ => rfl) d.nodes
    rw [List.filter_true, ← linkNames_eq] at hSum
    unfold toDo
    simp only [List.length_append, List.length_map,
      List.length_nil]
    omega
  have hAbove : d.OpenAbove links [] :=
    fun _ _ hOpen => by cases hOpen
  rcases hLeads.runErrands_eq
      (fun _ _ _ hKnown => by cases hKnown) hAbove hFuel with
    ⟨left, more, -, hLeft, hRun⟩
  obtain ⟨left, rfl⟩ : ∃ n, left = n + 1 := ⟨left - 1, by omega⟩
  have hReal :
      d.realRoute
          (if (Route.ofText path).isRooted then [] else d.cwd)
          (Route.ofText path).names =
        ⟨"/", place⟩ := by
    unfold realRoute
    rw [Route.isRooted_ofText, ← List.append_nil (List.map _ _)]
    exact hRun
  unfold resolve
  dsimp only
  rw [hReal, text_of_place]
  unfold stat
  rw [locate_textOf hTree hSound hNode.symm hLink]
  cases node with
  | file content mtime => rfl
  | dir mtime => rfl
  | link target => cases hLink

end Disk

end SymbolAtlas

------------------------------------------------------------
-- Texts of Real Paths
------------------------------------------------------------

namespace SymbolAtlas

namespace Disk

variable {d : Disk}

/- The name may stand in a route that is read from a text. -/
def IsReadable (name : String) : Prop :=
  '/' ∉ name.toList ∧ Route.isVoid name = false

theorem mem_normalNames
    {kept names : List String}
    {name : String}
    (hName : name ∈ normalNames kept names) :
    name ∈ kept ∨ name ∈ names := by
  induction names generalizing kept with
  | nil => exact Or.inl hName
  | cons first rest ih =>
      unfold normalNames at hName
      split at hName
      · exact (ih hName).imp_right (List.mem_cons_of_mem _)
      · split at hName
        · rcases ih hName with hKept | hRest
          · exact Or.inl (List.dropLast_subset _ hKept)
          · exact Or.inr (List.mem_cons_of_mem _ hRest)
        · rcases ih hName with hKept | hRest
          · rcases List.mem_append.mp hKept with hOld | hNew
            · exact Or.inl hOld
            · rw [List.mem_singleton.mp hNew]
              exact Or.inr List.mem_cons_self
          · exact Or.inr (List.mem_cons_of_mem _ hRest)

theorem isRead_tidied
    (path : String) :
    (tidied path).IsRead where
  roots := (Route.isRead_ofText path).roots
  names name hName := by
    rcases mem_normalNames hName with hNone | hMem
    · cases hNone
    · exact (Route.isRead_ofText path).names name hMem

/- Errands with names that can be read end at such a route. -/
theorem isRead_runErrands
    {fuel : Nat}
    {known : List (Place × Place)}
    {place : Place}
    {errands : List Errand}
    (hKnown :
      ∀ link real, known.lookup link = some real →
        ∀ name ∈ real, IsReadable name)
    (hPlace : ∀ name ∈ place, IsReadable name)
    (hErrands :
      ∀ name, .name name ∈ errands → '/' ∉ name.toList) :
    (d.runErrands fuel known place errands).IsRead := by
  induction fuel generalizing known place errands with
  | zero => exact ⟨.inr (.inl rfl), hPlace⟩
  | succ fuel ih =>
      cases errands with
      | nil => exact ⟨.inr (.inl rfl), hPlace⟩
      | cons errand rest =>
          have hRest :
              ∀ name, .name name ∈ rest → '/' ∉ name.toList :=
            fun name hName =>
              hErrands name (List.mem_cons_of_mem _ hName)
          cases errand with
          | leave link =>
              rw [runErrands]
              refine ih ?_ hPlace hRest
              intro other real hReal
              rw [List.lookup_cons] at hReal
              split at hReal
              · cases hReal
                exact hPlace
              · exact hKnown other real hReal
          | name name =>
              have hSlash := hErrands name List.mem_cons_self
              rw [runErrands]
              split
              · exact ih hKnown hPlace hRest
              next hVoid =>
              split
              · exact ih hKnown
                  (fun other hOther =>
                    hPlace other (List.dropLast_subset _ hOther))
                  hRest
              have hNext :
                  ∀ other ∈ place ++ [name], IsReadable other := by
                intro other hOther
                rcases List.mem_append.mp hOther with hOld | hNew
                · exact hPlace other hOld
                · rw [List.mem_singleton.mp hNew]
                  exact ⟨hSlash, by simpa using hVoid⟩
              dsimp only
              split
              · next target _ =>
                  split
                  · next real hReal =>
                      exact ih hKnown (hKnown _ real hReal) hRest
                  · split
                    · exact isRead_tidied _
                    · refine ih hKnown ?_ ?_
                      · split
                        · simp
                        · exact hPlace
                      · intro other hOther
                        rcases List.mem_append.mp hOther with
                          hTarget | hLater
                        · rcases List.mem_map.mp hTarget with
                            ⟨text, hText, hSame⟩
                          cases hSame
                          exact Path.not_mem_of_mem_names hText
                        · rcases List.mem_cons.mp hLater with
                            hLeave | hMore
                          · cases hLeave
                          · exact hRest other hMore
              · exact ih hKnown hNext hRest

/- A tree of named nodes, with names for the directory at work. -/
structure IsProper (d : Disk) : Prop where
  tree : d.IsTree
  sound : d.IsSound
  cwd : ∀ name ∈ d.cwd, IsName name

/- A real path is in normal form. -/
theorem normal_of_resolve
    (hProper : d.IsProper)
    {path real : String}
    (hResolve : d.resolve path = .ok real) :
    Path.normal real = real := by
  have hRead :
      (d.realRoute
        (if (Route.ofText path).isRooted then [] else d.cwd)
        (Route.ofText path).names).IsRead := by
    unfold realRoute
    apply isRead_runErrands
    · intro link real hReal
      cases hReal
    · split
      · simp
      · intro name hName
        have hIsName := hProper.cwd name hName
        exact ⟨hIsName.2, hIsName.1.1⟩
    · intro name hName
      rcases List.mem_map.mp hName with ⟨text, hText, hSame⟩
      cases hSame
      exact ((Route.isRead_ofText path).names name hText).1
  unfold resolve at hResolve
  dsimp only at hResolve
  split at hResolve
  · cases hResolve
  · rw [← Except.ok.inj hResolve]
    unfold Path.normal
    rw [hRead.ofText_text]

end Disk

theorem Settings.normal_of_resolvePath
    {d : Disk}
    (hProper : d.IsProper)
    {s : Settings}
    {path real : String}
    (hResolve : s.resolvePath d path = .ok real) :
    Path.normal real = real := by
  rcases exists_resolve_of_resolvePath hResolve with ⟨text, hText⟩
  exact Disk.normal_of_resolve hProper hText

end SymbolAtlas
