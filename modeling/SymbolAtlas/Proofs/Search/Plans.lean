import SymbolAtlas.Proofs.Mask.Cutting
import SymbolAtlas.Proofs.Search.Exactness

/-
  Plans keep the meaning of a mask.

  To look for a mask, its fixed names are made the base of a
  walk, and what is left is matched against the relative paths
  of the entries. On a disk without links this finds exactly the
  files whose paths the mask accepts when it is matched against
  whole paths.

  Key definitions:
    * `Search.Splittable`, masks that name a directory
    * `Search.baseOf`, the directory that is walked
    * `Disk.IsOpen`, `Disk.HasFile`

  Key theorems:
    * `Search.Splittable.exists_goal`
    * `Search.Splittable.exists_plan`
    * `Search.Splittable.mem_records_iff`
    * `Search.finds_what_its_mask_accepts`
-/

------------------------------------------------------------
-- Masks That Can Be Split
------------------------------------------------------------

namespace SymbolAtlas

namespace Search

/-
  A relative mask without classes that names a directory, which
  is followed by stars or by a last name.
-/
structure Splittable (mask : String) : Prop where
  relative : Path.isAbsolute mask = false
  chars : ∀ c ∈ mask.toList, c ∉ ['\\', '[']
  start : ¬ ['*', '*', '/'] <+: mask.toList
  names : ∀ name ∈ Path.names mask, Disk.IsName name
  fixed :
    ∀ name ∈ Path.fixedNames mask,
      ∀ c ∈ name.toList, c ∉ ['*', '?']

variable {mask : String}

theorem fixedNames_subset
    {name : String}
    (hName : name ∈ Path.fixedNames mask) :
    name ∈ Path.names mask :=
  List.dropLast_subset _ (List.takeWhile_subset _ hName)

/- Its names have no separators, as there are no backslashes. -/
theorem Splittable.isSegment
    (hMask : Splittable mask)
    {name : String}
    (hName : name ∈ Path.names mask) :
    Path.IsSegment name.toList := by
  intro c hC
  have hSlash := (hMask.names name hName).2
  have hBack := hMask.chars c (Path.mem_toList_of_mem_names hName hC)
  simp only [List.mem_cons, List.not_mem_nil, or_false,
    not_or] at hBack
  have hNe : c ≠ '/' := by
    rintro rfl
    exact hSlash hC
  simp [Path.isSeparator, hNe, hBack.1]

/- It does not end in a separator. -/
theorem Splittable.exists_last
    (hMask : Splittable mask) :
    ∃ front last,
      mask.toList = front ++ [last] ∧
        Path.isSeparator last = false := by
  have hNames : "" ∉ Path.names mask :=
    fun hEmpty => (hMask.names "" hEmpty).ne_empty rfl
  rcases List.eq_nil_or_concat mask.toList with
    hNone | ⟨front, last, hText⟩
  · have hEmpty : mask = "" := by simpa using hNone
    rw [hEmpty] at hNames
    exact absurd (by decide) hNames
  · rw [List.concat_eq_append] at hText
    refine ⟨front, last, hText, ?_⟩
    have hBack := hMask.chars last (by simp [hText])
    have hSlash : last ≠ '/' := by
      rintro rfl
      exact hNames (Path.mem_names_of_getLast? (by simp [hText]))
    simp only [List.mem_cons, List.not_mem_nil, or_false,
      not_or] at hBack
    simp [Path.isSeparator, hSlash, hBack.1]

theorem Splittable.request_eq
    (hMask : Splittable mask) :
    Query.request .file mask = .ok ⟨mask, .file⟩ := by
  rcases hMask.exists_last with ⟨front, last, hText, hLast⟩
  have hBare := Path.dropTrailingSeparators_of_last hText hLast
  have hSome : mask.isEmpty = false := by
    rw [← Bool.not_eq_true, String.isEmpty_iff]
    rintro rfl
    simp at hText
  have hStart : Query.withoutLeadingStars mask = mask := by
    unfold Query.withoutLeadingStars
    split
    · next c rest hStars =>
        have hBack := hMask.chars c (by simp [hStars])
        have hSlash : c ≠ '/' := by
          rintro rfl
          exact hMask.start ⟨rest, by rw [hStars]; rfl⟩
        simp only [List.mem_cons, List.not_mem_nil, or_false,
          not_or] at hBack
        rw [if_neg]
        simp [Path.isSeparator, hSlash, hBack.1]
    · rfl
  unfold Query.request
  simp [hBare, hSome, hStart]

/- The search for the files of one mask. -/
def queryFor (mask : String) : Query :=
  { requests := [⟨mask, .file⟩] }

theorem Splittable.findFiles_eq
    (hMask : Splittable mask) :
    Query.findFiles [mask] = .ok (queryFor mask) := by
  unfold Query.findFiles Query.files Query.ask Query.orAll
  rw [List.isEmpty_cons, if_neg Bool.false_ne_true,
    List.mapM_cons, hMask.request_eq]
  rfl

end Search

end SymbolAtlas

------------------------------------------------------------
-- The Directory and the Goal
------------------------------------------------------------

namespace SymbolAtlas

namespace Search

variable {mask : String}

/- The directory that a mask is looked for in. -/
def baseOf (mask : String) : String :=
  String.ofList (Path.stretch ("." :: Path.fixedNames mask))

/- The names in front are neither wildcards nor classes. -/
theorem Splittable.literal
    (hMask : Splittable mask)
    {c : Char}
    (hC : c ∈ Path.stretch (Path.fixedNames mask)) :
    c ∉ ['*', '?', '['] := by
  rcases Path.mem_stretch hC with rfl | ⟨name, hName, hMem⟩
  · decide
  · have hFixed := hMask.fixed name hName c hMem
    have hChars :=
      hMask.chars c (Path.mem_toList_of_mem_names
        (fixedNames_subset hName) hMem)
    simp only [List.mem_cons, List.not_mem_nil, or_false,
      not_or] at hFixed hChars ⊢
    exact ⟨hFixed.1, hFixed.2, hChars.2⟩

theorem toList_baseOf
    (mask : String) :
    (baseOf mask).toList =
      '.' :: '/' :: Path.stretch (Path.fixedNames mask) := by
  unfold baseOf
  rw [String.toList_ofList, Path.stretch_cons]
  rfl

/- Such a directory is looked for as it is written. -/
theorem Splittable.directories_eq
    (hMask : Splittable mask)
    {d : Disk}
    (hBase : d.isDirectory (baseOf mask) = true) :
    directories d (baseOf mask) = .ok [baseOf mask] := by
  have hPlain :
      ∀ c ∈ (baseOf mask).toList, c ∉ ['*', '?', '['] := by
    rw [toList_baseOf, List.forall_mem_cons, List.forall_mem_cons]
    exact ⟨by decide, by decide, fun c hC => hMask.literal hC⟩
  have hMagic : Glob.hasMagic (baseOf mask).toList = false := by
    unfold Glob.hasMagic
    rw [List.any_eq_false]
    intro c hC
    simpa [Glob.isMagic, and_assoc] using hPlain c hC
  have hText : Path.unescapeBrackets (baseOf mask) = baseOf mask := by
    apply Path.unescapeBrackets_of_not_mem
    intro hMem
    exact hPlain '[' hMem (by decide)
  unfold directories
  rw [hMagic, hText]
  simp [hBase]

variable {rest : String} {recursive : Bool}
  {items : List Mask.Item}

theorem Splittable.rest_chars
    (hMask : Splittable mask)
    (hCut : Path.Cut mask rest recursive) :
    '[' ∉ rest.toList ∧ '\\' ∉ rest.toList := by
  have hRest : ∀ c ∈ rest.toList, c ∉ ['\\', '['] := by
    intro c hC
    apply hMask.chars
    rw [hCut.text]
    exact List.mem_append_right _ (List.mem_append_right _ hC)
  exact ⟨fun hMem => hRest _ hMem (by decide),
    fun hMem => hRest _ hMem (by decide)⟩

/- The rest of a mask is not anchored, as no name is a dot. -/
theorem Splittable.rest_says
    (hMask : Splittable mask)
    (hCut : Path.Cut mask rest recursive)
    (hReads : Mask.Reads rest.toList items) :
    Mask.Says (Path.withSlashes rest).toList false items := by
  rw [Path.withSlashes_of_not_mem (hMask.rest_chars hCut).2]
  refine .floating ?_ hReads
  rintro ⟨more, hMore⟩
  have hJoined : rest = "./" ++ String.ofList more := by
    apply String.toList_injective
    simp [← hMore]
  have hSuffix := hCut.suffix
  rw [hJoined, Path.names_dot_append] at hSuffix
  have hName := hMask.names "." (hSuffix.subset List.mem_cons_self)
  exact absurd hName (by decide)

/- The whole mask has its fixed names in front of the rest. -/
theorem Splittable.whole_says
    (hMask : Splittable mask)
    (hCut : Path.Cut mask rest recursive)
    (hReads : Mask.Reads rest.toList items) :
    Mask.Says (Path.withSlashes ("./" ++ mask)).toList true
      ((Path.stretch (Path.fixedNames mask)).map
          Mask.Item.literal ++
        (Mask.starsItems recursive ++ items)) := by
  have hLiteral :
      ∀ c ∈ Path.stretch (Path.fixedNames mask),
        c ∉ ['*', '?', '['] :=
    fun c hC => hMask.literal hC
  have hWholeReads :=
    Mask.reads_literals hLiteral
      (Mask.reads_stars recursive hReads)
  have hBack : '\\' ∉ ("./" ++ mask).toList := by
    rw [String.toList_append, List.mem_append, not_or]
    exact ⟨by decide, fun hMem => hMask.chars _ hMem (by decide)⟩
  rw [Path.withSlashes_of_not_mem hBack, String.toList_append,
    hCut.text]
  exact .anchored hWholeReads

/-
  The rest of a mask is a goal at its directory, and together
  they accept what the whole mask accepts.
-/
theorem Splittable.exists_goal
    (hMask : Splittable mask) :
    ∃ rest recursive goal anchored,
      Path.Cut mask rest recursive ∧
      Mask.compile rest = .ok goal ∧
      Mask.compile ("./" ++ mask) = .ok anchored ∧
      ∀ chain : List String,
        chain ≠ [] →
        (∀ name ∈ chain, Disk.IsName name ∧
          '\n' ∉ name.toList ∧ '\\' ∉ name.toList) →
        (anchored.accepts (Path.joined chain) = true ↔
          ∃ below name,
            chain = Path.fixedNames mask ++ below ++ [name] ∧
            (below ≠ [] → recursive = true) ∧
            goal.accepts (Path.joined (below ++ [name])) =
              true) := by
  rcases Path.exists_cut
      (fun name hName => hMask.isSegment hName) with
    ⟨rest, recursive, hCut⟩
  have hClass := (hMask.rest_chars hCut).1
  rcases Mask.exists_reads hClass with ⟨items, hReads⟩
  rcases Mask.pattern?_of_says (hMask.rest_says hCut hReads) with
    ⟨goalPattern, hGoalPattern, hGoal⟩
  rcases Mask.pattern?_of_says (hMask.whole_says hCut hReads) with
    ⟨wholePattern, hWholePattern, hWhole⟩
  refine ⟨rest, recursive, ⟨rest, goalPattern⟩,
    ⟨"./" ++ mask, wholePattern⟩, hCut,
    Mask.compile_of_pattern? hGoalPattern,
    Mask.compile_of_pattern? hWholePattern, ?_⟩
  intro chain hSome hChain
  have hBack : ∀ name ∈ chain, '\\' ∉ name.toList :=
    fun name hName => (hChain name hName).2.2
  have hFront :
      ∀ name ∈ Path.fixedNames mask, '/' ∉ name.toList :=
    fun name hName =>
      (hMask.names name (fixedNames_subset hName)).2
  unfold Mask.accepts
  rw [hWhole, Path.withSlashes_joined hBack,
    Mask.accepted_stretch_iff hReads hClass hCut.single
      (fun name hName => (hChain name hName).1)
      (fun name hName => (hChain name hName).2.1) hFront hSome]
  refine exists₂_congr fun below name => and_congr_right ?_
  rintro rfl
  rw [List.append_assoc, List.forall_mem_append] at hBack
  rw [hGoal, Path.withSlashes_joined hBack.2]

end Search

end SymbolAtlas

------------------------------------------------------------
-- The Plan
------------------------------------------------------------

namespace SymbolAtlas

namespace Search

variable {mask : String}

/- The plan is one walk for one goal. -/
theorem Splittable.exists_plan
    (hMask : Splittable mask)
    {d : Disk}
    (hBase : d.isDirectory (baseOf mask) = true)
    {rest : String}
    {recursive : Bool}
    (hCut : Path.Cut mask rest recursive)
    {goal : Mask}
    (hGoal : Mask.compile rest = .ok goal) :
    ∃ plan,
      Search.plan d [] [⟨mask, .file⟩] = .ok plan ∧
        plan.entries =
          [(baseOf mask, [⟨goal, .file, recursive⟩])] := by
  have hSplits :
      splits [] ⟨mask, .file⟩ =
        .ok [⟨baseOf mask, rest, recursive⟩] := by
    have hDot : Path.escapeBrackets "." ++ "/" ++ mask = "./" ++ mask := by
      have hEscape : Path.escapeBrackets "." ++ "/" = "./" := by
        decide
      rw [hEscape]
    unfold splits
    rw [hMask.relative, if_neg Bool.false_ne_true]
    simp only [List.isEmpty_nil, if_true, List.map_cons,
      List.map_nil, hDot, hCut.split]
    rfl
  have hSome : (baseOf mask).isEmpty = false := by
    rw [← Bool.not_eq_true, String.isEmpty_iff]
    intro hEmpty
    have hChars := toList_baseOf mask
    rw [hEmpty] at hChars
    cases hChars
  have hAdd :
      addSplit d .file .empty ⟨baseOf mask, rest, recursive⟩ =
        .ok (addGoal .empty (baseOf mask)
          ⟨goal, .file, recursive⟩) := by
    unfold addSplit
    simp only [hSome, Bool.false_eq_true, if_false,
      hMask.directories_eq hBase, hGoal]
    rfl
  refine ⟨addGoal .empty (baseOf mask) ⟨goal, .file, recursive⟩,
    ?_, rfl⟩
  unfold plan addRequest
  simp only [List.foldlM_cons, List.foldlM_nil, hSplits, bind,
    Except.bind, pure, Except.pure, hAdd]

end Search

end SymbolAtlas

------------------------------------------------------------
-- Paths From the Working Directory
------------------------------------------------------------

namespace SymbolAtlas

namespace Path

/- A path of names has no dot to lose. -/
theorem withoutDot_joined
    {chain : List String}
    (hSome : chain ≠ [])
    (hNames : ∀ name ∈ chain, Disk.IsName name)
    (hBack : ∀ name ∈ chain, '\\' ∉ name.toList) :
    Record.withoutDot (joined chain) = joined chain := by
  unfold Record.withoutDot
  split
  · next c rest hText =>
      rw [if_neg]
      intro hSeparator
      have hCases : c = '/' ∨ c = '\\' := by
        simpa [isSeparator] using hSeparator
      rcases hCases with rfl | rfl
      · have hDot : joined chain = "./" ++ String.ofList rest := by
          apply String.toList_injective
          simp [hText]
        have hChain :=
          names_joined (fun name hName => (hNames name hName).2)
            hSome
        rw [hDot, names_dot_append] at hChain
        have hName := hNames "." (by rw [← hChain]; simp)
        exact absurd hName (by decide)
      · have hMem : '\\' ∈ (joined chain).toList := by
          rw [hText]
          simp
        rcases mem_toList_joined hMem with hSlash | ⟨name, hName, hC⟩
        · cases hSlash
        · exact hBack name hName hC
  · rfl

end Path

namespace Search

variable {mask : String}

theorem isAbsolute_baseOf
    (mask : String) :
    Path.isAbsolute (baseOf mask) = false := by
  unfold Path.isAbsolute
  rw [toList_baseOf]
  cases Path.stretch (Path.fixedNames mask) <;> rfl

/- What is found below the base has its path from there. -/
theorem pathAlong_baseOf
    {chain : List String}
    (hSome : chain ≠ [])
    (hNames :
      ∀ name ∈ Path.fixedNames mask ++ chain, Disk.IsName name)
    (hBack :
      ∀ name ∈ Path.fixedNames mask ++ chain,
        '\\' ∉ name.toList) :
    Record.pathAlong (baseOf mask) chain =
      Path.joined (Path.fixedNames mask ++ chain) := by
  induction chain using List.reverseRecOn with
  | nil => exact absurd rfl hSome
  | append_singleton front name ih =>
      rw [← List.append_assoc] at hNames hBack ⊢
      have hName := hNames name (by simp)
      rw [Record.pathAlong_concat]
      unfold Record.pathOf
      dsimp only
      by_cases hFront : front = []
      · subst hFront
        rw [List.append_nil] at hNames ⊢
        have hChild :
            Path.child (baseOf mask) name =
              "./" ++ Path.joined (Path.fixedNames mask ++ [name]) := by
          have hSlash : (baseOf mask).toList.getLast? = some '/' := by
            unfold baseOf Path.stretch
            rcases List.eq_nil_or_concat
                ("." :: Path.fixedNames mask) with
              hNone | ⟨init, last, hSplit⟩
            · cases hNone
            · rw [hSplit]
              simp
          rcases Path.child_cases (baseOf mask) hName with
            ⟨hChild, -⟩ | ⟨-, -, hEnd⟩
          · rw [hChild]
            apply String.toList_injective
            rw [String.toList_append, String.toList_append,
              Path.toList_joined_append _ (by simp), toList_baseOf]
            simp [Path.joined]
          · exact absurd hSlash hEnd
        change (if Path.isAbsolute (baseOf mask) = true then _ else _) = _
        rw [isAbsolute_baseOf, if_neg Bool.false_ne_true]
        change Record.withoutDot (Path.child (baseOf mask) name) = _
        rw [hChild]
        unfold Record.withoutDot
        rw [String.toList_append]
        simp [Path.isSeparator]
      · rw [List.forall_mem_append] at hNames hBack
        rw [ih hFront hNames.1 hBack.1,
          Path.child_joined (by simp [hFront]) hNames.1 hName]
        split
        · rfl
        · apply Path.withoutDot_joined (by simp)
          · rw [List.forall_mem_append]
            exact hNames
          · rw [List.forall_mem_append]
            exact hBack

end Search

end SymbolAtlas

------------------------------------------------------------
-- Open Disks
------------------------------------------------------------

namespace SymbolAtlas

/- The kind of an entry at which a node is. -/
def Node.kind : Node → EntryKind
| .file _ _ => .file
| .dir _ => .dir
| .link _ => .other

namespace Disk

/-
  A disk without links on which every directory can be listed,
  with no line end and no backslash in any name.
-/
structure IsOpen (d : Disk) : Prop where
  sound : d.IsSound
  linkFree : d.LinkFree
  listed :
    ∀ path, d.isDirectory path = true →
      ∃ names, d.list path = .ok names
  names :
    ∀ entry ∈ d.nodes, ∀ name ∈ entry.1,
      '\n' ∉ name.toList ∧ '\\' ∉ name.toList

/- The path leads to a file by names from the working directory. -/
def HasFile (d : Disk) (path : String) : Prop :=
  ∃ chain,
    chain ≠ [] ∧ (∀ name ∈ chain, IsName name) ∧
      path = Path.joined chain ∧ d.isFile path = true

variable {d : Disk}

/- A path of names is followed from the working directory. -/
theorem LinkFree.locate_joined_iff
    (hFree : d.LinkFree)
    {chain : List String}
    (hSome : chain ≠ [])
    (hSlash : ∀ name ∈ chain, '/' ∉ name.toList)
    (hStart : chain.head? ≠ some "")
    {found : Found} :
    d.locate true (Path.joined chain) = .ok found ↔
      d.advance true d.cwd chain = .ok (.arrived found) := by
  have hNames := Path.names_joined hSlash hSome
  have hEmpty : ¬ (Path.joined chain).isEmpty = true := by
    rw [String.isEmpty_iff]
    intro hNone
    rw [hNone] at hNames
    apply hStart
    rw [← hNames]
    rfl
  have hRooted : Path.isRooted (Path.joined chain) = false := by
    rw [← Bool.not_eq_true]
    intro hTrue
    rcases Path.isRooted_iff.mp hTrue with ⟨rest, hText⟩
    have hJoined : Path.joined chain = "/" ++ String.ofList rest := by
      apply String.toList_injective
      simp [hText]
    rw [hJoined, Path.names_slash_append] at hNames
    apply hStart
    rw [← hNames]
    rfl
  unfold locate
  rw [if_neg hEmpty, hRooted, hNames]
  exact hFree.follow_eq_ok_iff

theorem head?_ne_of_isName
    {chain : List String}
    (hNames : ∀ name ∈ chain, IsName name) :
    chain.head? ≠ some "" := by
  intro hEmpty
  exact (hNames "" (List.mem_of_head? hEmpty)).ne_empty rfl

/- The names of a place that is found are such as disks have. -/
theorem IsOpen.names_of_node?
    (hOpen : d.IsOpen)
    {place : Place}
    {node : Node}
    (hNode : d.node? place = some node) :
    ∀ name ∈ place, '\n' ∉ name.toList ∧ '\\' ∉ name.toList := by
  intro name hName
  exact hOpen.names _
    (mem_nodes_of_node? (List.ne_nil_of_mem hName) hNode) name hName

/- The place of a file, and the directories above it. -/
theorem IsOpen.exists_node
    (hOpen : d.IsOpen)
    {chain : List String}
    (hSome : chain ≠ [])
    (hNames : ∀ name ∈ chain, IsName name)
    (hFile : d.isFile (Path.joined chain) = true) :
    (∃ content mtime,
      d.node? (d.cwd ++ chain) = some (.file content mtime)) ∧
    (∀ front rest,
      front ≠ [] →
        rest ≠ [] →
          chain = front ++ rest →
            ∃ mtime, d.node? (d.cwd ++ front) =
              some (.dir mtime)) ∧
    ∀ name ∈ chain,
      '\n' ∉ name.toList ∧ '\\' ∉ name.toList := by
  rcases isFile_iff.mp hFile with ⟨place, content, mtime, hLocate⟩
  rw [hOpen.linkFree.locate_joined_iff hSome
    (fun name hName => (hNames name hName).2)
    (head?_ne_of_isName hNames)] at hLocate
  rcases advance_through hOpen.linkFree hNames hLocate with
    ⟨rfl, hAbove⟩
  have hNode := (node_of_advance hLocate).symm
  refine ⟨⟨content, mtime, hNode⟩, hAbove, ?_⟩
  intro name hName
  exact hOpen.names_of_node? hNode name
    (List.mem_append_right _ hName)

end Disk

namespace Search

variable {d : Disk} {mask base : String}

/- The base of a mask, found by its names with a slash behind. -/
theorem locate_baseOf
    (hFree : d.LinkFree)
    (hNames : ∀ name ∈ Path.fixedNames mask, Disk.IsName name)
    (hDirectory :
      d.isDirectory
        (Path.joined ("." :: Path.fixedNames mask)) = true) :
    ∃ mtime,
      d.locate true (baseOf mask) =
        .ok ⟨d.cwd ++ Path.fixedNames mask,
          some (.dir mtime)⟩ := by
  have hSlash :
      ∀ name ∈ "." :: Path.fixedNames mask, '/' ∉ name.toList := by
    rw [List.forall_mem_cons]
    exact ⟨by decide, fun name hName => (hNames name hName).2⟩
  rcases Disk.isDirectory_iff.mp hDirectory with
    ⟨place, mtime, hLocate⟩
  rw [hFree.locate_joined_iff (by simp) hSlash (by simp)] at hLocate
  have hGoal : place = d.cwd ++ Path.fixedNames mask :=
    (Disk.advance_through hFree hNames hLocate).1
  subst hGoal
  have hNode :
      some (.dir mtime) =
        d.node? (d.cwd ++ Path.fixedNames mask) :=
    Disk.node_of_advance hLocate
  have hText :
      baseOf mask =
        Path.joined (("." :: Path.fixedNames mask) ++ [""]) := by
    apply String.toList_injective
    rw [Path.toList_joined_append _ (by simp)]
    simp [baseOf, Path.joined]
  refine ⟨mtime, ?_⟩
  rw [hText, hFree.locate_joined_iff (by simp) _ (by simp),
    Disk.advance_append_last, Disk.approach_of_advance hLocate rfl,
    hNode]
  · rfl
  · rw [List.forall_mem_append, List.forall_mem_singleton]
    exact ⟨hSlash, by decide⟩

/- What is at a place below a directory is an entry of it. -/
theorem exists_isEntry
    (hOpen : d.IsOpen)
    {trail : List String}
    {place : Place}
    {mtime : Int}
    (hTrail :
      d.locate true (Path.below base trail) =
        .ok ⟨place, some (.dir mtime)⟩)
    {name : String}
    (hName : Disk.IsName name)
    {node : Node}
    (hNode : d.node? (place ++ [name]) = some node) :
    d.locate true (Path.below base (trail ++ [name])) =
        .ok ⟨place ++ [name], some node⟩ ∧
      ∃ record,
        IsEntry d base trail name record ∧
          record.kind = node.kind := by
  have hChild :=
    Disk.locate_child hTrail hName
      (hOpen.linkFree.node?_ne (place ++ [name]))
  rw [← Path.below_concat, hNode] at hChild
  refine ⟨hChild, ?_⟩
  rcases hOpen.listed _ (Disk.isDirectory_iff.mpr
      ⟨place, mtime, hTrail⟩) with ⟨names, hList⟩
  have hListed : name ∈ d.namesAt (Path.below base trail) :=
    (Disk.mem_namesAt_iff hList hTrail).mpr (List.mem_map.mpr
      ⟨_, Disk.mem_nodes_of_node? (by simp) hNode, rfl⟩)
  cases node with
  | link target =>
      exact absurd hNode (hOpen.linkFree.node?_ne _ _)
  | file content time =>
      have hStat :
          d.stat (Path.below base (trail ++ [name])) =
            .ok ⟨false, time⟩ := by
        unfold Disk.stat
        rw [hChild]
      exact ⟨_, ⟨hListed, Record.ofEntry?_of_stat hStat⟩, rfl⟩
  | dir time =>
      have hStat :
          d.stat (Path.below base (trail ++ [name])) =
            .ok ⟨true, time⟩ := by
        unfold Disk.stat
        rw [hChild]
      exact ⟨_, ⟨hListed, Record.ofEntry?_of_stat hStat⟩, rfl⟩

/- Directories below one another are a trail. -/
theorem isTrail_of_directories
    (hOpen : d.IsOpen)
    {place : Place}
    {mtime : Int}
    (hBase :
      d.locate true base = .ok ⟨place, some (.dir mtime)⟩)
    {trail : List String}
    (hNames : ∀ name ∈ trail, Disk.IsName name)
    (hDirectories :
      ∀ front, front <+: trail → front ≠ [] →
        ∃ time, d.node? (place ++ front) = some (.dir time)) :
    IsTrail d base trail ∧
      ∃ time,
        d.locate true (Path.below base trail) =
          .ok ⟨place ++ trail, some (.dir time)⟩ := by
  induction trail using List.reverseRecOn with
  | nil =>
      exact ⟨allSteps_nil, mtime, by rw [List.append_nil]; exact hBase⟩
  | append_singleton front name ih =>
      rw [List.forall_mem_append, List.forall_mem_singleton]
        at hNames
      rcases ih hNames.1 (fun above hAbove =>
          hDirectories above
            (hAbove.trans (List.prefix_append front [name]))) with
        ⟨hFront, time, hLocate⟩
      rcases hDirectories _ List.prefix_rfl (by simp) with
        ⟨later, hNode⟩
      rw [← List.append_assoc] at hNode ⊢
      rcases exists_isEntry hOpen hLocate hNames.2 hNode with
        ⟨hThere, record, hEntry, hKind⟩
      refine ⟨?_, later, hThere⟩
      rw [IsTrail, allSteps_concat_iff]
      refine ⟨hFront, record, hEntry, ?_⟩
      unfold Record.isDirectory
      rw [hKind]
      rfl

end Search

end SymbolAtlas

------------------------------------------------------------
-- What Is Found
------------------------------------------------------------

namespace SymbolAtlas

namespace Path

theorem keepsCourse_stretch
    {list : List String}
    (hNames : ∀ name ∈ list, Disk.IsName name)
    (hBack : ∀ name ∈ list, '\\' ∉ name.toList) :
    keepsCourse (stretch list) = true := by
  induction list with
  | nil => rfl
  | cons name rest ih =>
      rw [List.forall_mem_cons] at hNames hBack
      have hName := hNames.1
      have hCourse :=
        keepsCourse_of_isName hName (isUndotted_of_not_mem hBack.1)
      rw [stretch_cons]
      apply keepsCourse_append_slash hCourse
        (ih hNames.2 hBack.2)
      · simpa using hName.ne_empty
      · intro hSlash
        exact hName.2 (List.mem_of_getLast? hSlash)

end Path

namespace Search

variable {d : Disk} {mask : String}

/- An entry that is a file is found by the path of its record. -/
theorem IsEntry.isFile
    {base name : String}
    {trail : List String}
    {record : Record}
    (hEntry : IsEntry d base trail name record)
    (hKind : record.kind = .file) :
    d.isFile (Path.below base (trail ++ [name])) = true := by
  rcases Record.stat_of_kind_eq_file hEntry.taken hKind with
    ⟨mtime, hStat⟩
  exact Disk.isFile_of_stat hStat

theorem Splittable.isName
    (hMask : Splittable mask)
    {chain : List String}
    (hChain : ∀ name ∈ chain, Disk.IsName name) :
    ∀ name ∈ Path.fixedNames mask ++ chain, Disk.IsName name := by
  rw [List.forall_mem_append]
  exact ⟨fun name hName => hMask.names name (fixedNames_subset hName),
    hChain⟩

theorem Splittable.no_backslash
    (hMask : Splittable mask) :
    ∀ name ∈ Path.fixedNames mask, '\\' ∉ name.toList := by
  intro name hName hMem
  exact hMask.chars _
    (Path.mem_toList_of_mem_names (fixedNames_subset hName) hMem)
    (by decide)

theorem Splittable.keepsCourse_baseOf
    (hMask : Splittable mask) :
    Path.KeepsCourse (baseOf mask) := by
  unfold Path.KeepsCourse
  rw [toList_baseOf, Path.keepsCourse]
  exact Path.keepsCourse_stretch
    (fun name hName => hMask.names name (fixedNames_subset hName))
    hMask.no_backslash

/-
  The walk below the base of a mask finds the files there that
  the goal accepts, deeper ones if there were stars.
-/
theorem Splittable.mem_records_iff
    (hMask : Splittable mask)
    (hOpen : d.IsOpen)
    {w : Walker}
    (hDescent : w.descent = [])
    (hContent : w.content = [])
    (hDepth : w.maxDepth = none)
    (hIgnore : w.ignoreUnreadable = true)
    (goal : Mask)
    (recursive : Bool) :
    ((w.walk d (baseOf mask) [⟨goal, .file, recursive⟩]).records.map
      Record.relative).Nodup ∧
    ∀ record,
      record ∈ (w.walk d (baseOf mask)
          [⟨goal, .file, recursive⟩]).records ↔
        ∃ trail name,
          IsTrail d (baseOf mask) trail ∧
          IsEntry d (baseOf mask) trail name record ∧
          (trail ≠ [] → recursive = true) ∧
          record.kind = .file ∧
          goal.accepts record.relative = true := by
  have hSound := hOpen.sound
  have hReturn :=
    noReturn_of_linkFree hOpen.linkFree hSound (baseOf mask)
  have hUndotted :
      ∀ entry ∈ d.nodes, ∀ name ∈ entry.1,
        Path.IsUndotted name := by
    intro entry hEntry name hName
    exact Path.isUndotted_of_not_mem
      (hOpen.names entry hEntry name hName).2
  have hStraight :=
    straight_of_keepsCourse hSound
      (Or.inr hMask.keepsCourse_baseOf) hUndotted
  rcases hStraight.walksExactly hSound hReturn w
      [⟨goal, .file, recursive⟩] hIgnore with ⟨-, hOnce, hFound⟩
  refine ⟨hOnce, fun record => (hFound record).trans ?_⟩
  refine exists₂_congr fun trail name => ?_
  have hAllows : w.Allows trail.length := by
    intro limit hLimit
    rw [hDepth] at hLimit
    cases hLimit
  rw [comes_iff_of_no_filters hDescent hContent]
  simp only [hAllows, true_and, Walker.Wants, List.mem_singleton,
    exists_eq_left]
  rfl

/- The names on the way to an entry are such as disks have. -/
theorem IsEntry.names_fit
    {base : String}
    {trail : List String}
    {name : String}
    {record : Record}
    (hEntry : IsEntry d base trail name record)
    (hOpen : d.IsOpen)
    (hTrail : IsTrail d base trail) :
    ∀ step ∈ trail ++ [name],
      Disk.IsName step ∧ '\n' ∉ step.toList ∧
        '\\' ∉ step.toList := by
  have hListed :
      ∀ path step,
        step ∈ d.namesAt path →
          Disk.IsName step ∧ '\n' ∉ step.toList ∧
            '\\' ∉ step.toList := by
    intro path step hStep
    rcases Disk.exists_node_of_mem_namesAt hStep with
      ⟨node, hNode, hMem⟩
    exact ⟨hOpen.sound.names node hNode step hMem,
      hOpen.names node hNode step hMem⟩
  rw [List.forall_mem_append, List.forall_mem_singleton]
  refine ⟨?_, hListed _ _ hEntry.listed⟩
  refine AllSteps.forall_mem hTrail ?_
  rintro steps step ⟨entry, hThere, -⟩
  exact hListed _ _ hThere.listed

/-
  A file that is found has its names behind those of the base,
  and its path leads to it.
-/
theorem Splittable.path_of_isEntry
    (hMask : Splittable mask)
    (hOpen : d.IsOpen)
    {trail : List String}
    {name : String}
    {record : Record}
    (hTrail : IsTrail d (baseOf mask) trail)
    (hEntry : IsEntry d (baseOf mask) trail name record) :
    record.path =
        Path.joined
          (Path.fixedNames mask ++ (trail ++ [name])) ∧
      (record.kind = .file → d.isFile record.path = true) := by
  have hFit := hEntry.names_fit hOpen hTrail
  have hNames : ∀ step ∈ trail ++ [name], Disk.IsName step :=
    fun step hStep => (hFit step hStep).1
  have hBack :
      ∀ step ∈ Path.fixedNames mask ++ (trail ++ [name]),
        '\\' ∉ step.toList := by
    rw [List.forall_mem_append]
    exact ⟨hMask.no_backslash,
      fun step hStep => (hFit step hStep).2.2⟩
  have hUndotted :
      ∀ step ∈ trail ++ [name], Path.IsUndotted step :=
    fun step hStep =>
      Path.isUndotted_of_not_mem (hFit step hStep).2.2
  have hUndots :=
    Path.undots_pathAlong (Or.inr hMask.keepsCourse_baseOf)
      hNames hUndotted
  refine ⟨?_, fun hKind => ?_⟩
  · rw [hEntry.path_eq]
    exact pathAlong_baseOf (by simp) (hMask.isName hNames) hBack
  · have hFile := hEntry.isFile hKind
    unfold Disk.isFile at hFile ⊢
    rw [hEntry.path_eq]
    rwa [Disk.stat_of_undots hUndots] at hFile

theorem Splittable.hasFile_of_isEntry
    (hMask : Splittable mask)
    (hOpen : d.IsOpen)
    {trail : List String}
    {name : String}
    {record : Record}
    (hTrail : IsTrail d (baseOf mask) trail)
    (hEntry : IsEntry d (baseOf mask) trail name record)
    (hKind : record.kind = .file) :
    d.HasFile record.path := by
  rcases hMask.path_of_isEntry hOpen hTrail hEntry with
    ⟨hPath, hFile⟩
  refine ⟨_, by simp, ?_, hPath, hFile hKind⟩
  exact hMask.isName fun step hStep =>
    (hEntry.names_fit hOpen hTrail step hStep).1

/- Two files that are found under one path are the same. -/
theorem Splittable.record_eq
    (hMask : Splittable mask)
    (hOpen : d.IsOpen)
    {trail other : List String}
    {name second : String}
    {record found : Record}
    (hTrail : IsTrail d (baseOf mask) trail)
    (hEntry : IsEntry d (baseOf mask) trail name record)
    (hOther : IsTrail d (baseOf mask) other)
    (hFound : IsEntry d (baseOf mask) other second found)
    (hPath : record.path = found.path) :
    record = found := by
  have hNames :=
    hMask.isName fun step hStep =>
      (hEntry.names_fit hOpen hTrail step hStep).1
  have hOtherNames :=
    hMask.isName fun step hStep =>
      (hFound.names_fit hOpen hOther step hStep).1
  rw [(hMask.path_of_isEntry hOpen hTrail hEntry).1,
    (hMask.path_of_isEntry hOpen hOther hFound).1] at hPath
  have hChains :=
    Path.joined_inj hNames hOtherNames (by simp) (by simp) hPath
  rw [List.append_cancel_left_eq, List.append_singleton_inj]
    at hChains
  have hTaken := hEntry.taken
  rw [hChains.1, hChains.2, hFound.taken] at hTaken
  exact (Option.some.inj hTaken).symm

/- A file that the goal accepts below the base is an entry there. -/
theorem exists_isEntry_of_isFile
    (hOpen : d.IsOpen)
    {mtime : Int}
    (hBase :
      d.locate true (baseOf mask) =
        .ok ⟨d.cwd ++ Path.fixedNames mask, some (.dir mtime)⟩)
    {below : List String}
    {name : String}
    (hNames :
      ∀ step ∈ Path.fixedNames mask ++ below ++ [name],
        Disk.IsName step)
    (hFile :
      d.isFile
        (Path.joined
          (Path.fixedNames mask ++ below ++ [name])) = true) :
    IsTrail d (baseOf mask) below ∧
      ∃ record,
        IsEntry d (baseOf mask) below name record ∧
          record.kind = .file := by
  rcases hOpen.exists_node (by simp) hNames hFile with
    ⟨⟨content, time, hNode⟩, hAbove, -⟩
  rw [List.forall_mem_append, List.forall_mem_append,
    List.forall_mem_singleton] at hNames
  have hDirectories :
      ∀ front, front <+: below → front ≠ [] →
        ∃ time,
          d.node? (d.cwd ++ Path.fixedNames mask ++ front) =
            some (.dir time) := by
    rintro front ⟨rest, rfl⟩ hFront
    rw [List.append_assoc]
    exact hAbove (Path.fixedNames mask ++ front) (rest ++ [name])
      (by simp [hFront]) (by simp) (by simp)
  rcases isTrail_of_directories hOpen hBase hNames.1.2
      hDirectories with ⟨hTrail, later, hLocate⟩
  rw [← List.append_assoc, ← List.append_assoc] at hNode
  rcases exists_isEntry hOpen hLocate hNames.2 hNode with
    ⟨-, record, hEntry, hKind⟩
  exact ⟨hTrail, record, hEntry, hKind⟩

/-
  A search for a mask finds the files that the whole mask
  accepts, and each of them once.
-/
theorem finds_what_its_mask_accepts
    (hOpen : d.IsOpen)
    (hMask : Splittable mask)
    (hDirectory :
      d.isDirectory
        (Path.joined ("." :: Path.fixedNames mask)) = true) :
    ∃ q anchored,
      Query.findFiles [mask] = .ok q ∧
      Mask.compile ("./" ++ mask) = .ok anchored ∧
      (q.run d).failure = none ∧
      ((q.run d).records.map Record.path).Nodup ∧
      ∀ path,
        path ∈ (q.run d).records.map Record.path ↔
          d.HasFile path ∧ anchored.accepts path = true := by
  have hFixed :
      ∀ name ∈ Path.fixedNames mask, Disk.IsName name :=
    fun name hName => hMask.names name (fixedNames_subset hName)
  rcases locate_baseOf hOpen.linkFree hFixed hDirectory with
    ⟨mtime, hLocate⟩
  have hBase : d.isDirectory (baseOf mask) = true :=
    Disk.isDirectory_iff.mpr ⟨_, mtime, hLocate⟩
  rcases hMask.exists_goal with
    ⟨rest, recursive, goal, anchored, hCut, hGoal, hAnchored,
      hAccepts⟩
  rcases hMask.exists_plan hBase hCut hGoal with
    ⟨plan, hPlan, hEntries⟩
  rcases (queryFor mask).run_of_plan rfl rfl hPlan with
    ⟨hFailure, hRecords⟩
  rw [hEntries, List.flatMap_singleton] at hRecords
  rcases hMask.mem_records_iff (w := (queryFor mask).walker) hOpen
      rfl rfl rfl rfl goal recursive with ⟨hOnce, hFound⟩
  rw [← hRecords] at hOnce hFound
  have hFit :
      ∀ name ∈ Path.fixedNames mask,
        '\n' ∉ name.toList ∧ '\\' ∉ name.toList := by
    intro name hName
    exact hOpen.names_of_node? (Disk.node_of_locate hLocate).symm
      name (List.mem_append_right _ hName)
  refine ⟨queryFor mask, anchored, hMask.findFiles_eq, hAnchored, hFailure,
    ?_, ?_⟩
  · refine List.Nodup.map_on ?_ hOnce.of_map
    intro record hRecord found hOther hPath
    rcases (hFound record).mp hRecord with
      ⟨trail, name, hTrail, hEntry, -⟩
    rcases (hFound found).mp hOther with
      ⟨other, second, hOtherTrail, hOtherEntry, -⟩
    exact hMask.record_eq hOpen hTrail hEntry hOtherTrail
      hOtherEntry hPath
  · intro path
    rw [List.mem_map]
    constructor
    · rintro ⟨record, hRecord, rfl⟩
      rcases (hFound record).mp hRecord with
        ⟨trail, name, hTrail, hEntry, hDeep, hKind, hAccepted⟩
      have hNames := hEntry.names_fit hOpen hTrail
      refine ⟨hMask.hasFile_of_isEntry hOpen hTrail hEntry hKind,
        ?_⟩
      rw [(hMask.path_of_isEntry hOpen hTrail hEntry).1,
        hAccepts _ (by simp)]
      · refine ⟨trail, name, by simp, hDeep, ?_⟩
        rw [← hEntry.relative_eq]
        exact hAccepted
      · rw [List.forall_mem_append]
        exact ⟨fun name hName => ⟨hFixed name hName,
          hFit name hName⟩, hNames⟩
    · rintro ⟨⟨chain, hSome, hNames, rfl, hFile⟩, hAccepted⟩
      have hLetters :=
        (hOpen.exists_node hSome hNames hFile).2.2
      rcases (hAccepts chain hSome fun name hName =>
          ⟨hNames name hName, hLetters name hName⟩).mp hAccepted
        with ⟨below, name, rfl, hDeep, hGoalAccepts⟩
      rcases exists_isEntry_of_isFile hOpen hLocate hNames hFile
        with ⟨hTrail, record, hEntry, hKind⟩
      refine ⟨record, (hFound record).mpr ⟨below, name, hTrail,
        hEntry, hDeep, hKind, ?_⟩, ?_⟩
      · rw [hEntry.relative_eq]
        exact hGoalAccepts
      · rw [(hMask.path_of_isEntry hOpen hTrail hEntry).1,
          List.append_assoc]

theorem isOpen_library : Disk.library.IsOpen where
  sound := Disk.isSound_library
  linkFree := by
    unfold Disk.LinkFree
    decide
  listed := by
    intro path hDirectory
    rcases Disk.isDirectory_iff.mp hDirectory with
      ⟨place, mtime, hLocate⟩
    unfold Disk.list
    rw [hLocate]
    exact ⟨_, rfl⟩
  names := by decide

/- All files below the library, in whatever directory. -/
theorem finds_all_in_library :
    ∃ q anchored,
      Query.findFiles ["lib/**/*.php"] = .ok q ∧
      Mask.compile "./lib/**/*.php" = .ok anchored ∧
      (q.run Disk.library).failure = none ∧
      ((q.run Disk.library).records.map Record.path).Nodup ∧
      ∀ path,
        path ∈ (q.run Disk.library).records.map Record.path ↔
          Disk.library.HasFile path ∧
            anchored.accepts path = true := by
  have hFixed : Path.fixedNames "lib/**/*.php" = ["lib"] := by
    decide
  have hMask : Splittable "lib/**/*.php" := by
    refine ⟨by decide, by simp, by decide, by decide, ?_⟩
    rw [hFixed]
    simp
  exact finds_what_its_mask_accepts isOpen_library hMask (by decide)

end Search

end SymbolAtlas
