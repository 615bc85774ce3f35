import CheckedFormat.Proofs.ListHandles
/-! The two forms of a formatted call.

The direct form of a call takes the arguments; the list form takes the handle of a list. A
program that opens a list over its arguments, makes the call in its list form and ends the
list gets what the direct form gives, whatever is wrong with the arguments, the format or the
stream (`forms_agree`): all that is left is that a handle was used up. -/
namespace CheckedFormat
namespace Host

variable {F D : Type}

namespace Session

/-- A call on a list that is opened for it. -/
def onOpened (arguments : ArgumentArray) (call : Nat → Call Int F D) : Call Int F D := fun s =>
  let (list, s) := vaStart arguments s
  call list s

/-- A call on a list that is opened for it and ended behind it. -/
def onEnded (arguments : ArgumentArray) (call : Nat → Call Int F D) : Call Int F D := fun s =>
  let (list, s) := vaStart arguments s
  let (result, s) := call list s
  (result, (vaEnd list s).2)

/-- A call in its list form does what its direct form does. Behind it only the lists differ,
and behind the end of its list only the handle to be issued next. -/
structure FormsAgree (direct : Call Int F D) (arguments : ArgumentArray)
    (call : Nat → Call Int F D) (s : Session F D) : Prop where
  called : onOpened arguments call s =
    ((direct s).1, { (direct s).2 with lists := (onOpened arguments call s).2.lists })
  ended : ∃ next, onEnded arguments call s =
    ((direct s).1, { (direct s).2 with lists := { s.lists with next } })

variable {s : Session F D} {arguments : ArgumentArray}

/-- The three steps of the list form one after the other. -/
theorem FormsAgree.of_steps {direct : Call Int F D} {call : Nat → Call Int F D} {list next : Nat}
    {opened : Session F D} {lists : Table ArgumentList}
    (hstart : vaStart arguments s = (list, opened))
    (hcall : call list opened = ((direct s).1, { (direct s).2 with lists }))
    (hend : (vaEnd list { (direct s).2 with lists }).2 =
      { (direct s).2 with lists := { s.lists with next } }) :
    FormsAgree direct arguments call s where
  called := by
    unfold onOpened
    rw [hstart]
    dsimp only
    rw [hcall]
  ended := by
    refine ⟨next, ?_⟩
    unfold onEnded
    rw [hstart]
    dsimp only
    rw [hcall]
    dsimp only
    rw [hend]

variable {operation : String} {f : List Byte → OnList Int F D}

/-- The null handle is refused without a report. -/
theorem withFormat_null (h : s.lists.find? null = none) (format : Text) :
    withFormat format null operation f s = (eof, { s with errno := Errno.invalidArgument }) := by
  cases format with
  | none => rfl
  | some format =>
    have hlist : withFormat (some format) null operation f =
        withList null operation eof (f format) := rfl
    rw [hlist, withList_of_none h]
    rfl

theorem vaEnd_null (h : s.lists.find? null = none) :
    vaEnd null s = ((), { s with errno := Errno.invalidArgument }) := by
  rw [vaEnd_of_none h]
  rfl

/-- What opens no list is refused in either form. -/
theorem formsAgree_of_none (hnull : s.lists.find? null = none) (hslots : arguments.slots? = none)
    (format : Text) :
    FormsAgree (withArguments format arguments f) arguments
      (fun list => withFormat format list operation f) s := by
  let refused : Session F D := { s with errno := Errno.invalidArgument }
  have hrefused : refused.lists.find? null = none := hnull
  have hdirect : withArguments format arguments f s = (eof, refused) := by
    rw [withArguments_of_none hslots]
    rfl
  have hcall : withFormat format null operation f refused =
      ((withArguments format arguments f s).1,
        { (withArguments format arguments f s).2 with lists := s.lists }) := by
    rw [hdirect, withFormat_null hrefused]
  have hend : (vaEnd null { (withArguments format arguments f s).2 with lists := s.lists }).2 =
      { (withArguments format arguments f s).2 with
        lists := { s.lists with next := s.lists.next } } := by
    rw [hdirect]
    exact congrArg Prod.snd (vaEnd_null hrefused)
  exact .of_steps (vaStart_of_none hslots) hcall hend

/-- What opens a list works on it in the list form as it does in the direct form. -/
theorem formsAgree_of_some (hs : s.lists.Ordered) {slots : List Slot}
    (hslots : arguments.slots? = some slots) (hf : ∀ format, (f format).Orderly) (format : Text) :
    FormsAgree (withArguments format arguments f) arguments
      (fun list => withFormat format list operation f) s := by
  let opened := ArgumentList.start s.level slots
  have hopened : (s.lists.issue opened).2.find? s.lists.next = some opened := by
    rw [Table.find?_issue hs, if_pos rfl]
  obtain ⟨lists, later, hcall, hlater, hended, hremove⟩ : ∃ lists later,
      withFormat format s.lists.next operation f { s with lists := (s.lists.issue opened).2 } =
        ((withArguments format arguments f s).1,
          { (withArguments format arguments f s).2 with lists }) ∧
      lists.find? s.lists.next = some later ∧ later.ended = false ∧
      lists.remove s.lists.next = { s.lists with next := s.lists.next + 1 } := by
    cases format with
    -- The format is refused, and the list is ended unused.
    | none => exact ⟨_, opened, rfl, hopened, rfl, Table.remove_issue hs _⟩
    | some format =>
      have hmoves := (hf format).moves opened s
      refine ⟨(s.lists.issue opened).2.update s.lists.next (f format opened s).2.1,
        (f format opened s).2.1, ?_, ?_, ?_, ?_⟩
      · have hlist : withFormat (some format) s.lists.next operation f =
            withList s.lists.next operation eof (f format) := rfl
        rw [hlist, withList_of_some (hf format) hopened, (hf format).apart,
          withArguments_of_some hslots]
      · rw [Table.find?_update, if_pos rfl, hopened]
        rfl
      · rw [hmoves]
        rfl
      · rw [Table.remove_update]
        exact Table.remove_issue hs _
  have hend : (vaEnd s.lists.next { (withArguments format arguments f s).2 with lists }).2 =
      { (withArguments format arguments f s).2 with
        lists := { s.lists with next := s.lists.next + 1 } } := by
    rw [vaEnd_of_some hended hlater]
    dsimp only
    rw [hremove]
  exact .of_steps (vaStart_of_some hslots) hcall hend

end Session

variable [FileSystem F D]

open Session

/-- **The two forms of a call agree**, behind any run of calls, in a process of either check
level and whatever they are given: the answer, the error number, the memory, the files, the
streams and the faults that are reported are the same. -/
theorem forms_agree (s : Session F D) (requests : List (Request F)) (arguments : ArgumentArray)
    (format : Text) (stream buffer size : Nat) :
    let now := s.unlisted.behind requests
    FormsAgree (snprintf buffer size format arguments) arguments
      (vsnprintf buffer size format) now ∧
    FormsAgree (fprintf stream format arguments) arguments (vfprintf stream format) now ∧
    FormsAgree (fscanf stream format arguments) arguments (vfscanf stream format) now := by
  intro now
  have hlists := listsTracked s.unlisted rfl requests
  have hordered : now.lists.Ordered := hlists.settled.ordered
  have hnull : now.lists.find? null = none := hlists.find?_null
  have hagree (operation : String) {f : List Byte → OnList Int F D}
      (hf : ∀ format, (f format).Orderly) :
      FormsAgree (withArguments format arguments f) arguments
        (fun list => withFormat format list operation f) now := by
    cases hslots : arguments.slots? with
    | none => exact formsAgree_of_none hnull hslots format
    | some slots => exact formsAgree_of_some hordered hslots hf format
  exact ⟨hagree _ (printInto_orderly buffer size), hagree _ (printTo_orderly stream),
    hagree _ (scanFrom_orderly stream)⟩

end Host
end CheckedFormat
