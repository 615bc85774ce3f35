import CheckedFormat.Proofs.Requests
import Mathlib.Data.List.Induction
/-! Handles of argument lists.

A program holds its argument lists by handles. `listRole` says of every call what it does
with them: most calls see no list; the formatted calls and the reads work on the list behind
their handle; and opening, copying and ending issue and end handles. `lists_never_confused`
says what follows in every run of calls: a handle is issued once and is live until it is
ended, a call works on the list that its handle was issued for and on no other, and a handle
that was ended is reported each time that it is used. -/
namespace CheckedFormat
namespace Host

variable {F D : Type} [FileSystem F D]

open Session (OnList)

/-! ### What calls do with lists -/

/-- The handle of the list that a call works on, and the name under which it reports one
that was ended. -/
def Request.use? : Request F → Option (Nat × String)
  | .vaArg list _ => some (list, "va_arg")
  | .vaCopy list => some (list, "va_copy")
  | .vaEnd list => some (list, "va_end")
  | .vfprintf _ (some _) list => some (list, "vfprintf")
  | .vsnprintf _ _ (some _) list => some (list, "vsnprintf")
  | .vfscanf _ (some _) list => some (list, "vfscanf")
  | _ => none

/-- What a call did to the handles of lists. -/
def Exchange.listTurn (e : Exchange F) : Table.Turn :=
  match e.request, e.answer with
  | .vaStart _, .handle h | .vaCopy _, .handle h => if h = Session.null then .nothing else .issues h
  | .vaEnd h, _ => .ends h
  | _, _ => .nothing

/-- What a call does with the argument lists. -/
inductive ListRole : Request F → Prop where
  | apart {request : Request F} {α : Type} {answer : α → Reply} {c : Call α F D}
      (use : request.use? = none) (turn : ∀ a, Exchange.listTurn ⟨request, a⟩ = .nothing)
      (perform : request.perform = .map answer c) (listless : c.Listless) : ListRole request
  | start (arguments : ArgumentArray) : ListRole (.vaStart arguments)
  | copy (list : Nat) : ListRole (.vaCopy list)
  | finish (list : Nat) : ListRole (.vaEnd list)
  | work {request : Request F} {list : Nat} {operation : String} {α : Type} {failed : α}
      {answer : α → Reply} {f : OnList α F D} (use : request.use? = some (list, operation))
      (turn : ∀ a, Exchange.listTurn ⟨request, a⟩ = .nothing)
      (perform : request.perform = .map answer (Session.withList list operation failed f))
      (orderly : f.Orderly) : ListRole request

open Session in
theorem listRole (request : Request F) : ListRole (D := D) request := by
  cases request with
  | vaStart arguments => exact .start arguments
  | vaArg list type => exact .work rfl (fun _ => rfl) rfl (nextArgument_orderly type)
  | vaCopy list => exact .copy list
  | vaEnd list => exact .finish list
  | fopen path mode => exact .apart rfl (fun _ => rfl) rfl (fopen_listless path mode)
  | fclose stream => exact .apart rfl (fun _ => rfl) rfl (fclose_listless stream)
  | fflush stream => exact .apart rfl (fun _ => rfl) rfl (fflush_listless stream)
  | fgetc stream => exact .apart rfl (fun _ => rfl) rfl (fgetc_listless stream)
  | fputc c stream => exact .apart rfl (fun _ => rfl) rfl (fputc_listless c stream)
  | putchar c => exact .apart rfl (fun _ => rfl) rfl (fputc_listless c stdout)
  | fputs text stream => exact .apart rfl (fun _ => rfl) rfl (fputs_listless text stream)
  | puts text => exact .apart rfl (fun _ => rfl) rfl (puts_listless text)
  | fgets buffer size stream =>
    exact .apart rfl (fun _ => rfl) rfl (fgets_listless buffer size stream)
  | fread buffer size count stream =>
    exact .apart rfl (fun _ => rfl) rfl (fread_listless buffer size count stream)
  | fwrite bytes size count stream =>
    exact .apart rfl (fun _ => rfl) rfl (fwrite_listless bytes size count stream)
  | fseek stream offset whence =>
    exact .apart rfl (fun _ => rfl) rfl (fseek_listless stream offset whence)
  | ftell stream => exact .apart rfl (fun _ => rfl) rfl (ftell_listless stream)
  | rewind stream =>
    have hperform : Request.perform (D := D) (.rewind stream) =
        .map (fun _ => .nothing) (Session.rewind stream) := rfl
    exact .apart rfl (fun _ => rfl) hperform (rewind_listless stream)
  | feof stream => exact .apart rfl (fun _ => rfl) rfl (feof_listless stream)
  | ferror stream => exact .apart rfl (fun _ => rfl) rfl (ferror_listless stream)
  | clearerr stream =>
    have hperform : Request.perform (D := D) (.clearerr stream) =
        .map (fun _ => .nothing) (Session.clearerr stream) := rfl
    exact .apart rfl (fun _ => rfl) hperform (clearerr_listless stream)
  | printf format arguments =>
    exact .apart rfl (fun _ => rfl) rfl (fprintf_listless stdout format arguments)
  | fprintf stream format arguments =>
    exact .apart rfl (fun _ => rfl) rfl (fprintf_listless stream format arguments)
  | sprintf buffer format arguments =>
    exact .apart rfl (fun _ => rfl) rfl (sprintf_listless buffer format arguments)
  | snprintf buffer size format arguments =>
    exact .apart rfl (fun _ => rfl) rfl (snprintf_listless buffer size format arguments)
  | scanf format arguments =>
    exact .apart rfl (fun _ => rfl) rfl (fscanf_listless stdin format arguments)
  | fscanf stream format arguments =>
    exact .apart rfl (fun _ => rfl) rfl (fscanf_listless stream format arguments)
  | sscanf input format arguments =>
    exact .apart rfl (fun _ => rfl) rfl (sscanf_listless input format arguments)
  -- The list forms refuse a null format before they look at the handle.
  | vfprintf stream format list =>
    cases format with
    | none => exact .apart rfl (fun _ => rfl) rfl (.fail Errno.invalidArgument eof)
    | some format => exact .work rfl (fun _ => rfl) rfl (printTo_orderly stream format)
  | vsnprintf buffer size format list =>
    cases format with
    | none => exact .apart rfl (fun _ => rfl) rfl (.fail Errno.invalidArgument eof)
    | some format => exact .work rfl (fun _ => rfl) rfl (printInto_orderly buffer size format)
  | vfscanf stream format list =>
    cases format with
    | none => exact .apart rfl (fun _ => rfl) rfl (.fail Errno.invalidArgument eof)
    | some format => exact .work rfl (fun _ => rfl) rfl (scanFrom_orderly stream format)
  | clearErrno =>
    have hperform : Request.perform (D := D) .clearErrno =
        .map (fun _ => .nothing) Session.clearErrno := rfl
    exact .apart rfl (fun _ => rfl) hperform clearErrno_listless
  | meanwhile files memory =>
    have hperform : Request.perform (D := D) (.meanwhile files memory) =
        .map (fun _ => .nothing) (Session.meanwhile files memory) := rfl
    exact .apart rfl (fun _ => rfl) hperform (meanwhile_listless files memory)

/-! ### One call -/

namespace Session

/-- The lists of a program between calls: the handles are in order and none of them is
null, and every live list has the level of the process and is not ended. -/
structure Settled (s : Session F D) : Prop where
  ordered : s.lists.Ordered
  null_lt : null < s.lists.next
  stands : ∀ h l, s.lists.find? h = some l → l.level = s.level ∧ l.ended = false

variable {s : Session F D} {list : Nat} {l : ArgumentList} {arguments : ArgumentArray}

section Handling
omit [FileSystem F D]

theorem vaStart_of_some {slots : List Slot} (h : arguments.slots? = some slots) :
    vaStart arguments s =
      (s.lists.next, { s with lists := (s.lists.issue (.start s.level slots)).2 }) := by
  unfold vaStart ArgumentArray.list?
  rw [h]
  rfl

theorem vaStart_of_none (h : arguments.slots? = none) :
    vaStart arguments s = (null, { s with errno := Errno.invalidArgument }) := by
  unfold vaStart ArgumentArray.list?
  rw [h]
  rfl

/-- Copying a list that is not ended only makes the copy. -/
theorem copyOf_of_open (hopen : l.ended = false) (s : Session F D) :
    copyOf l s = (some l, l, s) := by
  have hrefuses : l.refusesUse = false := by
    rw [ArgumentList.refusesUse, hopen, Bool.false_and]
  have hsame : { l with ended := false } = l := by rw [← hopen]
  simp only [copyOf, ArgumentList.copy, ArgumentList.observeUse, hrefuses, note, hsame]
  rfl

theorem vaCopy_of_some (hs : s.Settled) (h : s.lists.find? list = some l) :
    vaCopy list s = (s.lists.next, { s with lists := (s.lists.issue l).2 }) := by
  have hcopy := copyOf_of_open (hs.stands list l h).2 s
  unfold vaCopy withList
  rw [h]
  dsimp only
  rw [hcopy]
  dsimp only
  rw [Table.update_eq_self hs.ordered h]
  rfl

theorem vaCopy_of_none (h : s.lists.find? list = none) :
    vaCopy list s =
      (null, { (if s.wasIssued list then noteStaleList list "va_copy" s else s) with
        errno := Errno.invalidArgument }) := by
  unfold vaCopy
  rw [withList_of_none h]

theorem vaEnd_of_some (hopen : l.ended = false) (h : s.lists.find? list = some l) :
    vaEnd list s = ((), { s with lists := s.lists.remove list }) := by
  have hrefuses : l.refusesUse = false := by
    rw [ArgumentList.refusesUse, hopen, Bool.false_and]
  unfold vaEnd
  rw [h]
  simp only [ArgumentList.observeUse, hrefuses, note]
  rfl

theorem vaEnd_of_none (h : s.lists.find? list = none) :
    vaEnd list s =
      if s.wasIssued list then ((), noteStaleList list "va_end" s)
      else ((), { s with errno := Errno.invalidArgument }) := by
  unfold vaEnd
  rw [h]
  rfl

end Handling

end Session

open Session

/-- What a call does that is made in a session: it leaves the lists alone, opens one, copies
one, ends one, works on one, or is refused for a handle that is not live. -/
inductive ListHandled (s : Session F D) (request : Request F) (answer : Reply)
    (later : Session F D) : Prop where
  | apart (use : request.use? = none) (turn : Exchange.listTurn ⟨request, answer⟩ = .nothing)
      (lists : later.lists = s.lists) (quiet : s.telemetry.Quiet later.telemetry)
  | opened {arguments : ArgumentArray} {slots : List Slot}
      (requested : request = .vaStart arguments) (valid : arguments.slots? = some slots)
      (answered : answer = .handle s.lists.next)
      (lists : later.lists = (s.lists.issue (.start s.level slots)).2)
      (telemetry : later.telemetry = s.telemetry)
  | copied {list : Nat} {l : ArgumentList} (requested : request = .vaCopy list)
      (live : s.lists.find? list = some l) (answered : answer = .handle s.lists.next)
      (lists : later.lists = (s.lists.issue l).2) (telemetry : later.telemetry = s.telemetry)
  | ended {list : Nat} {l : ArgumentList} (requested : request = .vaEnd list)
      (live : s.lists.find? list = some l) (lists : later.lists = s.lists.remove list)
      (telemetry : later.telemetry = s.telemetry)
  | worked {list cursor : Nat} {operation : String} {l : ArgumentList}
      (use : request.use? = some (list, operation))
      (turn : Exchange.listTurn ⟨request, answer⟩ = .nothing)
      (live : s.lists.find? list = some l)
      (lists : later.lists = s.lists.update list { l with cursor })
      (quiet : s.telemetry.Quiet later.telemetry)
  | refused {list : Nat} {operation : String} (use : request.use? = some (list, operation))
      (dead : s.lists.find? list = none)
      (turn : Exchange.listTurn ⟨request, answer⟩ = .nothing ∨
        Exchange.listTurn ⟨request, answer⟩ = .ends list)
      (lists : later.lists = s.lists)
      (telemetry : later.telemetry =
        if s.wasIssued list then (noteStaleList list operation s).telemetry else s.telemetry)

variable {s : Session F D}

theorem listHandled (hs : s.Settled) (request : Request F) :
    ListHandled s request (request.perform s).1 (request.perform s).2 := by
  cases listRole (D := D) request with
  | apart use turn perform listless =>
    rw [perform]
    exact .apart use (turn _) (listless.lists_eq s) (listless.quiet s)
  | start arguments =>
    cases hvalid : arguments.slots? with
    | none =>
      have hstart := vaStart_of_none (s := s) hvalid
      refine .apart rfl ?_ ?_ ?_
      all_goals
        dsimp only [Request.perform, Call.map]
        rw [hstart]
      · rfl
      · exact .refl _
    | some slots =>
      have hstart := vaStart_of_some (s := s) hvalid
      refine .opened rfl hvalid ?_ ?_ ?_
      all_goals
        dsimp only [Request.perform, Call.map]
        rw [hstart]
  | copy list =>
    cases hfind : s.lists.find? list with
    | none =>
      have hcopy := vaCopy_of_none hfind
      refine .refused rfl hfind (.inl ?_) ?_ ?_
      all_goals
        dsimp only [Request.perform, Call.map]
        rw [hcopy]
      · rfl
      · split <;> rfl
      · dsimp only
        split <;> rfl
    | some l =>
      have hcopy := vaCopy_of_some hs hfind
      refine .copied rfl hfind ?_ ?_ ?_
      all_goals
        dsimp only [Request.perform, Call.map]
        rw [hcopy]
  | finish list =>
    cases hfind : s.lists.find? list with
    | none =>
      have hend := vaEnd_of_none hfind
      refine .refused rfl hfind (.inr rfl) ?_ ?_
      all_goals
        dsimp only [Request.perform, Call.map]
        rw [hend]
        split <;> rfl
    | some l =>
      have hend := vaEnd_of_some (hs.stands list l hfind).2 hfind
      refine .ended rfl hfind ?_ ?_
      all_goals
        dsimp only [Request.perform, Call.map]
        rw [hend]
  | @work request list operation α failed answer f use turn perform orderly =>
    rw [perform]
    cases hfind : s.lists.find? list with
    | none =>
      have hwork : withList list operation failed f s = _ := withList_of_none hfind
      refine .refused use hfind (.inl (turn _)) ?_ ?_
      all_goals
        dsimp only [Call.map]
        rw [hwork]
        dsimp only
        split <;> rfl
    | some l =>
      have hwork : withList list operation failed f s = _ := withList_of_some orderly hfind
      have hmoves := orderly.moves l s
      have hlists : (Call.map answer (withList list operation failed f) s).2.lists =
          s.lists.update list { l with cursor := (f l s).2.1.cursor } := by
        dsimp only [Call.map]
        rw [hwork, ← hmoves]
      have hquiet : s.telemetry.Quiet
          (Call.map answer (withList list operation failed f) s).2.telemetry := by
        dsimp only [Call.map]
        rw [hwork]
        exact orderly.quiet l s (hs.stands list l hfind).2
      exact .worked use (turn _) hfind hlists hquiet

namespace ListHandled

variable {request : Request F} {answer : Reply} {later : Session F D} {h : Nat} {l : ArgumentList}

omit [FileSystem F D]

theorem turned (hs : s.Settled) (hhandled : ListHandled s request answer later) :
    s.lists.Turned later.lists (Exchange.listTurn ⟨request, answer⟩) := by
  have hnext : s.lists.next ≠ null := Nat.ne_of_gt hs.null_lt
  cases hhandled with
  | apart use turn lists quiet =>
    rw [turn, lists]
    exact .nothing rfl rfl
  | opened requested valid answered lists telemetry =>
    rw [requested, answered, lists, Exchange.listTurn]
    dsimp only
    rw [if_neg hnext]
    exact Table.turned_issue _ _
  | copied requested live answered lists telemetry =>
    rw [requested, answered, lists, Exchange.listTurn]
    dsimp only
    rw [if_neg hnext]
    exact Table.turned_issue _ _
  | ended requested live lists telemetry =>
    rw [requested, lists]
    exact Table.turned_remove _ _
  | worked use turn live lists quiet =>
    rw [turn, lists]
    exact Table.turned_update _ _ _
  | @refused list _ use dead turn lists telemetry =>
    rw [lists]
    rcases turn with turn | turn
    · rw [turn]
      exact .nothing rfl rfl
    · have hends := Table.turned_remove s.lists list
      rw [Table.remove_eq_self dead] at hends
      rwa [turn]

/-- A list behind a call was there before, moved on at most, or it is the one that the call
opened or copied. -/
theorem find?_later (hs : s.Settled) (hhandled : ListHandled s request answer later)
    (hfind : later.lists.find? h = some l) :
    (∃ before, s.lists.find? h = some before ∧ l = { before with cursor := l.cursor }) ∨
      h = s.lists.next ∧ answer = .handle h ∧
        ((∃ arguments slots, request = .vaStart arguments ∧ arguments.slots? = some slots ∧
            l = .start s.level slots) ∨
          ∃ parent, request = .vaCopy parent ∧ s.lists.find? parent = some l) := by
  cases hhandled with
  | apart use turn lists quiet =>
    rw [lists] at hfind
    exact .inl ⟨l, hfind, rfl⟩
  | @opened arguments slots requested valid answered lists telemetry =>
    rw [lists, Table.find?_issue hs.ordered] at hfind
    split at hfind
    · rename_i heq
      exact .inr ⟨heq, heq ▸ answered, .inl ⟨arguments, slots, requested, valid,
        (Option.some.inj hfind).symm⟩⟩
    · exact .inl ⟨l, hfind, rfl⟩
  | @copied parent copy requested live answered lists telemetry =>
    rw [lists, Table.find?_issue hs.ordered] at hfind
    split at hfind
    · rename_i heq
      exact .inr ⟨heq, heq ▸ answered, .inr ⟨parent, requested, live.trans hfind⟩⟩
    · exact .inl ⟨l, hfind, rfl⟩
  | ended requested live lists telemetry =>
    rw [lists, Table.find?_remove] at hfind
    split at hfind
    · cases hfind
    · exact .inl ⟨l, hfind, rfl⟩
  | @worked list cursor operation before use turn live lists quiet =>
    rw [lists, Table.find?_update] at hfind
    split at hfind
    · rename_i heq
      rw [heq, live, Option.map_some] at hfind
      rw [heq, ← Option.some.inj hfind]
      exact .inl ⟨before, live, rfl⟩
    · exact .inl ⟨l, hfind, rfl⟩
  | refused use dead turn lists telemetry =>
    rw [lists] at hfind
    exact .inl ⟨l, hfind, rfl⟩

/-- What a call leaves of a live list that it does not name. -/
theorem find?_other (hs : s.Settled) (hhandled : ListHandled s request answer later)
    (hlive : h ∈ s.lists.handles) (hother : ∀ operation, request.use? ≠ some (h, operation)) :
    later.lists.find? h = s.lists.find? h := by
  have hold : h ≠ s.lists.next := Nat.ne_of_lt (hs.ordered.below h hlive)
  cases hhandled with
  | apart use turn lists quiet => rw [lists]
  | opened requested valid answered lists telemetry =>
    rw [lists, Table.find?_issue hs.ordered, if_neg hold]
  | copied requested live answered lists telemetry =>
    rw [lists, Table.find?_issue hs.ordered, if_neg hold]
  | @ended list _ requested live lists telemetry =>
    have hne : h ≠ list := fun heq => hother "va_end" (by rw [requested, heq]; rfl)
    rw [lists, Table.find?_remove, if_neg hne]
  | @worked list _ operation _ use turn live lists quiet =>
    have hne : h ≠ list := fun heq => hother operation (heq ▸ use)
    rw [lists, Table.find?_update, if_neg hne]
  | refused use dead turn lists telemetry => rw [lists]

/-- The level of the process stays. -/
theorem level (hhandled : ListHandled s request answer later) : later.level = s.level := by
  cases hhandled with
  | apart use turn lists quiet => exact quiet.level
  | opened requested valid answered lists telemetry => exact congrArg (·.level) telemetry
  | copied requested live answered lists telemetry => exact congrArg (·.level) telemetry
  | ended requested live lists telemetry => exact congrArg (·.level) telemetry
  | worked use turn live lists quiet => exact quiet.level
  | @refused list operation use dead turn lists telemetry =>
    have hstale : (noteStaleList list operation s).level = s.level := by
      simp only [noteStaleList, Session.level, note, Telemetry.report]
      split <;> rfl
    unfold Session.level at hstale ⊢
    rw [telemetry]
    split
    · exact hstale
    · rfl

theorem settled (hs : s.Settled) (hhandled : ListHandled s request answer later) :
    later.Settled where
  ordered := (hhandled.turned hs).ordered hs.ordered
  null_lt := Nat.lt_of_lt_of_le hs.null_lt (hhandled.turned hs).next_le
  stands h l hfind := by
    rcases hhandled.find?_later hs hfind with ⟨before, hbefore, heq⟩ | ⟨-, -, hnew⟩
    · rw [heq, hhandled.level]
      exact hs.stands h before hbefore
    · rw [hhandled.level]
      rcases hnew with ⟨arguments, slots, -, -, rfl⟩ | ⟨parent, -, hparent⟩
      · exact ⟨rfl, rfl⟩
      · exact hs.stands parent l hparent

end ListHandled

/-! ### Other lists are not seen -/

/-- The session with only some of its lists. -/
def Session.keeping (s : Session F D) (keep : Nat → Bool) : Session F D :=
  { s with lists := s.lists.keeping keep }

namespace Session

variable {keep : Nat → Bool}

omit [FileSystem F D] in
theorem Settled.keeping (hs : s.Settled) (keep : Nat → Bool) : (s.keeping keep).Settled where
  ordered := hs.ordered.keeping keep
  null_lt := hs.null_lt
  stands h l hfind := by
    have hkept : (s.lists.keeping keep).find? h = some l := hfind
    rw [Table.find?_keeping] at hkept
    split at hkept
    · exact hs.stands h l hkept
    · cases hkept

omit [FileSystem F D] in
theorem find?_keeping {h : Nat} (hkeep : keep h = true) :
    (s.keeping keep).lists.find? h = s.lists.find? h :=
  (Table.find?_keeping s.lists keep h).trans (if_pos hkeep)

end Session

/-! ### Runs -/

/-- The slots of the list that a handle was issued for: the ones that the list was opened
over, or those of the list that it is a copy of. -/
inductive IssuedFor : List (Exchange F) → Nat → List Slot → Prop where
  | start {h : Nat} {arguments : ArgumentArray} {slots : List Slot}
      (before later : List (Exchange F)) (nonnull : h ≠ null)
      (valid : arguments.slots? = some slots) :
      IssuedFor (before ++ ⟨.vaStart arguments, .handle h⟩ :: later) h slots
  | copy {h parent : Nat} {slots : List Slot} {before : List (Exchange F)} (nonnull : h ≠ null)
      (parentFor : IssuedFor before parent slots) (later : List (Exchange F)) :
      IssuedFor (before ++ ⟨.vaCopy parent, .handle h⟩ :: later) h slots

omit [FileSystem F D] in
theorem IssuedFor.concat {events : List (Exchange F)} {h : Nat} {slots : List Slot}
    (hissued : IssuedFor events h slots) (e : Exchange F) : IssuedFor (events ++ [e]) h slots := by
  cases hissued with
  | start before later nonnull valid =>
    rw [List.append_assoc, List.cons_append]
    exact .start before _ nonnull valid
  | copy nonnull parentFor later =>
    rw [List.append_assoc, List.cons_append]
    exact .copy nonnull parentFor _

/-- What calls did to the handles of lists. -/
def listTurns (events : List (Exchange F)) : List Table.Turn := events.map Exchange.listTurn

/-- What holds of the lists behind every run of calls. -/
structure ListsTracked (start : Session F D) (requests : List (Request F)) : Prop where
  level : (start.behind requests).level = start.level
  settled : (start.behind requests).Settled
  tracks : (start.behind requests).lists.Tracks [] firstList (listTurns (start.history requests))
  issuedFor : ∀ h l, (start.behind requests).lists.find? h = some l →
    IssuedFor (start.history requests) h l.slots

theorem listsTracked (start : Session F D) (hstart : start.lists = ⟨[], firstList⟩)
    (requests : List (Request F)) : ListsTracked start requests := by
  induction requests using List.reverseRecOn with
  | nil =>
    have hordered : start.lists.Ordered := by
      rw [hstart]
      exact ⟨.nil, nofun⟩
    have hempty (h : Nat) : start.lists.find? h = none := by
      rw [hstart]
      rfl
    refine ⟨rfl, ⟨hordered, ?_, fun h l hfind => ?_⟩, ?_, fun h l hfind => ?_⟩
    · show null < start.lists.next
      rw [hstart]
      decide
    · exact nomatch (hempty h).symm.trans hfind
    · have htracks := Table.Tracks.start hordered
      rw [hstart] at htracks
      show start.lists.Tracks _ _ _
      rw [hstart]
      exact htracks
    · exact nomatch (hempty h).symm.trans hfind
  | append_singleton requests request ih =>
    obtain ⟨hlevel, hsettled, htracks, hissued⟩ := ih
    have hhandled := listHandled hsettled request
    refine ⟨?_, ?_, ?_, fun h l hfind => ?_⟩
    · rw [behind_concat]
      exact hhandled.level.trans hlevel
    · rw [behind_concat]
      exact hhandled.settled hsettled
    · rw [behind_concat, history_concat, listTurns, List.map_append]
      exact htracks.concat (hhandled.turned hsettled)
    · rw [behind_concat] at hfind
      rw [history_concat]
      rcases hhandled.find?_later hsettled hfind with
        ⟨before, hbefore, heq⟩ | ⟨hnew, hanswer, hcause⟩
      · rw [heq]
        exact (hissued h before hbefore).concat _
      · have hnonnull : h ≠ null := hnew ▸ Nat.ne_of_gt hsettled.null_lt
        rw [hanswer]
        rcases hcause with ⟨arguments, slots, rfl, hvalid, rfl⟩ | ⟨parent, rfl, hparent⟩
        · exact .start _ [] hnonnull hvalid
        · exact .copy hnonnull (hissued parent l hparent) []

namespace ListsTracked

variable {start : Session F D} {requests : List (Request F)}

theorem isSome_iff (hlists : ListsTracked start requests) (h : Nat) :
    ((start.behind requests).lists.find? h).isSome = true ↔
      Table.LiveSince (listTurns (start.history requests)) h := by
  rw [Table.isSome_find?_iff, hlists.tracks.live_iff]
  simp

theorem find?_of_dead (hlists : ListsTracked start requests) {h : Nat}
    (hdead : ¬Table.LiveSince (listTurns (start.history requests)) h) :
    (start.behind requests).lists.find? h = none := by
  rwa [← hlists.isSome_iff, Option.not_isSome_iff_eq_none] at hdead

theorem wasIssued_iff (hlists : ListsTracked start requests) (h : Nat) :
    (start.behind requests).wasIssued h = true ↔
      h ∈ Table.issued (listTurns (start.history requests)) := by
  rw [hlists.tracks.mem_issued_iff, wasIssued, Bool.and_eq_true, bne_iff_ne, decide_eq_true_eq]
  exact and_congr_left fun _ => Nat.one_le_iff_ne_zero.symm

theorem find?_null (hlists : ListsTracked start requests) :
    (start.behind requests).lists.find? null = none := by
  refine hlists.find?_of_dead fun hlive => ?_
  have hissued := (hlists.wasIssued_iff null).2 (Table.mem_issued_of_liveSince hlive)
  exact Bool.noConfusion hissued

end ListsTracked

/-- The session with no list opened yet. -/
def Session.unlisted (s : Session F D) : Session F D := { s with lists := ⟨[], firstList⟩ }

end Host

open Host in
/-- A list is ended, and its handle is used all the same. -/
example :
    let calls := [.vaStart (.at [⟨0, 7⟩]), .vaArg 1 .int, .vaEnd 1, .vaArg 1 .int]
    let s : Session :=
      .start ⟨[], [], [], [], []⟩ (.start .input) (.start .output) (.start .errors)
    (s.history calls).map Exchange.answer = [.handle 1, .bits 7, .nothing, .bits 0] ∧
    (s.behind calls).telemetry.journal.entries =
      [⟨1, .useAfterEnd, "va_arg", "va_list handle 1 used after va_end"⟩] := by
  decide +kernel

end CheckedFormat
