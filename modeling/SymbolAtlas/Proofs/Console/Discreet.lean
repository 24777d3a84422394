import SymbolAtlas.Console.Run
import SymbolAtlas.Proofs.Search.Failures
import SymbolAtlas.Proofs.Work

/-
  Work of a command that lets no error through.

  What is printed, refused and reported ends with a status, or
  with an error that is none of this library's own domain. So
  does a look at a store, and the key of one.

  Key definitions:
    * `Console.Stop.IsDiscreet`, `Console.Discreet`
  Key theorems:
    * `Console.discreet_report`
    * `Console.discreet_exposed`
    * `Console.failsWith_key`, `Console.fails_read`
-/

------------------------------------------------------------
-- Printing and Reporting
------------------------------------------------------------

namespace SymbolAtlas

namespace Console

variable {α : Type}

/- The stop lets no error through that could be reported. -/
def Stop.IsDiscreet (stop : Stop) : Prop :=
  ∀ error, stop = .crash error → error.isReported = false

/- No error that could be reported goes through. -/
abbrev Discreet (work : Work α) : Prop :=
  Work.Fails Stop.IsDiscreet work

theorem isDiscreet_status
    (code : Nat) :
    (Stop.status code).IsDiscreet := by
  intro error hCrash
  cases hCrash

theorem isDiscreet_crash
    {error : Error}
    (hHidden : error.isReported = false) :
    (Stop.crash error).IsDiscreet := by
  intro other hCrash
  cases hCrash
  exact hHidden

theorem discreet_printLines
    (lines : List (List Char)) :
    Discreet (printLines lines) :=
  Work.fails_modify _

/- What the tags of a text say is not reported. -/
theorem isReported_of_wording
    {error : Error}
    (hFamily : error.family = .wording) :
    error.isReported = false := by
  unfold Error.isReported
  rw [hFamily]

theorem discreet_printMarkup
    (text : String) :
    Discreet (printMarkup text) := by
  unfold printMarkup
  split
  · exact discreet_printLines _
  · next error hPlain =>
      exact Work.fails_throw (isDiscreet_crash
        (isReported_of_wording
          (Markup.misworded_plain text error hPlain)))

theorem discreet_refuse
    (message : String)
    (hint : Option String) :
    Discreet (refuse message hint : Work α) := by
  have hStatus : Discreet (throw (.status 1) : Work α) :=
    Work.fails_throw (isDiscreet_status 1)
  refine (discreet_printMarkup _).bind fun _ => ?_
  cases hint with
  | none => exact (Work.fails_pure ()).bind fun _ => hStatus
  | some text =>
      exact (discreet_printMarkup _).bind fun _ => hStatus

/- Errors that can be reported are. -/
theorem discreet_report
    (result : Except Error α) :
    Discreet (report result) := by
  unfold report
  split
  · exact Work.fails_pure _
  · split
    · exact discreet_refuse _ _
    · next hHidden =>
        apply Work.fails_throw
        exact isDiscreet_crash (by simpa using hHidden)

end Console

end SymbolAtlas

------------------------------------------------------------
-- Work on the Desk
------------------------------------------------------------

namespace SymbolAtlas

namespace Console

variable {α β : Type} {c : Console} {desk : Desk}

/- An error of work on the desk is the value of the work. -/
theorem onDesk_of_error
    {work : Desk.Work α}
    {error : Error}
    (hFails : work c.desk = .error error desk) :
    onDesk work c = .ok (.error error) { c with desk := desk } := by
  unfold onDesk
  rw [hFails]

theorem onDesk_of_ok
    {work : Desk.Work α}
    {value : α}
    (hRun : work c.desk = .ok value desk) :
    onDesk work c = .ok (.ok value) { c with desk := desk } := by
  unfold onDesk
  rw [hRun]

/- Work on the desk has its errors as values. -/
theorem discreet_onDesk
    (work : Desk.Work α) :
    Discreet (onDesk work) := by
  intro c stop final hFails
  unfold onDesk at hFails
  split at hFails <;> cases hFails

theorem discreet_expose
    {result : Except Error α}
    (hHidden :
      FailsWith (fun error => error.isReported = false) result) :
    Discreet (expose result) := by
  cases result with
  | ok value => exact Work.fails_pure value
  | error found =>
      exact Work.fails_throw (isDiscreet_crash (hHidden _ rfl))

/- Errors of the desk that cannot be reported may go through. -/
theorem discreet_exposed
    {work : Desk.Work α}
    {next : α → Work β}
    (hHidden :
      Work.Fails (fun error => error.isReported = false) work)
    (hNext : ∀ value, Discreet (next value)) :
    Discreet (do
      let value ← expose (← onDesk work)
      next value) := by
  intro c stop final hFails
  cases hRun : work c.desk with
  | ok value desk =>
      rw [Work.bind_of_ok (onDesk_of_ok hRun)] at hFails
      exact hNext value _ _ _ hFails
  | error error desk =>
      rw [Work.bind_of_ok (onDesk_of_error hRun)] at hFails
      cases hFails
      exact isDiscreet_crash (hHidden _ _ _ hRun)

end Console

end SymbolAtlas

------------------------------------------------------------
-- Stores
------------------------------------------------------------

namespace SymbolAtlas

namespace Console

/- The key of a store fails only for what is around it. -/
theorem failsWith_key
    (s : Settings)
    (d : Disk) :
    FailsWith (fun error => error.isReported = false)
      (Key.ofSettings s d) := by
  have hPath (path : String) :
      FailsWith (fun error => error.isReported = false)
        (s.resolvePath d path) := by
    refine (s.failsWith_resolvePath d path).mono ?_
    intro error hFamily
    unfold Error.isReported
    rw [hFamily]
  refine FailsWith.map ?_ _
  refine (failsWith_mapM hPath _).bind fun _ => ?_
  refine (failsWith_mapM hPath _).bind fun _ => ?_
  exact (failsWith_mapM hPath _).bind fun _ => failsWith_ok _

/- A store that is looked into fails for nothing of its own. -/
theorem fails_read
    (store : Store) :
    Work.Fails (fun error => error.isReported = false)
      store.read := by
  have hCheck (notice : Notice) :
      Work.Fails (fun error => error.isReported = false)
        (Desk.tell notice) := by
    refine Work.Fails.bind ?_ fun _ => Work.fails_modify _
    cases hCheck : notice.check with
    | ok shown => exact Work.fails_pure _
    | error error =>
        exact Work.fails_throw (isReported_of_wording
          (notice.misworded_check error hCheck))
  have hDiscard (reason : String) :
      Work.Fails (fun error => error.isReported = false)
        (store.discard reason) := by
    refine Work.Fails.bind ?_ fun _ => Work.fails_pure _
    unfold Store.debug
    split
    · exact hCheck _
    · exact Work.fails_pure _
  refine Work.fails_get.bind fun desk => ?_
  split
  · exact Work.fails_pure _
  · exact hDiscard _
  · split
    · exact Work.fails_pure _
    · exact Work.fails_throw rfl
    · exact Work.fails_throw rfl
    · exact hDiscard _

end Console

end SymbolAtlas
