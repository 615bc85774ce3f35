import CheckedFormat.Conformance.Summary
import Mathlib.Algebra.GroupWithZero.Nat
import Mathlib.Data.List.Forall2
/-! No case is lost and every verdict is counted.

A case is run at both levels or at one, by its mode (`Case.runsAt_of_isForBoth`,
`Case.runsAt_iff`), and each run gives one verdict, also where the case cannot be run
(`Suite.verdicts_isOn`). A verdict shows a difference just when it does not pass. The
tallies of the families are built up one verdict after another and keep account of the
verdicts so far (`Accounted`), so in the end they say how many of each family passed and
failed, whatever the order. `suite_accounts_close` puts these together. -/
namespace CheckedFormat

/-! ### Values under ascending keys -/

namespace Keyed
variable {α : Type}

/-- The keys ascend, so that each stands once. -/
def Ascending (members : Keyed α) : Prop := members.Pairwise (·.1 < ·.1)

theorem key_of_mem_update {key : String} {f : Option α → α} {members : Keyed α} {p : String × α}
    (h : p ∈ update key f members) : p.1 = key ∨ p.1 ∈ members.map (·.1) := by
  fun_induction update key f members with
  | case1 => exact .inl (by rw [List.mem_singleton.1 h])
  | case2 a rest =>
    rcases List.mem_cons.1 h with rfl | h
    · exact .inl rfl
    · exact .inr (List.mem_map_of_mem (List.mem_cons_of_mem _ h))
  | case3 k a rest _ _ =>
    rcases List.mem_cons.1 h with rfl | h
    · exact .inl rfl
    · exact .inr (List.mem_map_of_mem h)
  | case4 k a rest _ _ ih =>
    rcases List.mem_cons.1 h with rfl | h
    · exact .inr List.mem_cons_self
    · exact (ih h).imp_right (List.mem_cons_of_mem _)

theorem Ascending.update {members : Keyed α} (h : members.Ascending) (key : String)
    (f : Option α → α) : (Keyed.update key f members).Ascending := by
  fun_induction Keyed.update key f members with
  | case1 => exact List.pairwise_singleton ..
  | case2 a rest => exact List.pairwise_cons.2 (List.pairwise_cons.1 h)
  | case3 k a rest _ hlt =>
    refine List.pairwise_cons.2 ⟨List.forall_mem_cons.2 ⟨hlt, fun p hp => ?_⟩, h⟩
    exact String.lt_trans hlt ((List.pairwise_cons.1 h).1 p hp)
  | case4 k a rest hne hge ih =>
    obtain ⟨hfirst, hrest⟩ := List.pairwise_cons.1 h
    refine List.pairwise_cons.2 ⟨fun p hp => ?_, ih hrest⟩
    rcases key_of_mem_update hp with hkey | hkey
    · -- The key is neither this one nor below it.
      rw [hkey]
      by_contra hle
      exact hne (String.le_antisymm (String.not_lt.1 hge) (String.not_lt.1 hle))
    · obtain ⟨q, hq, heq⟩ := List.mem_map.1 hkey
      rw [← heq]
      exact hfirst q hq

theorem lookup_cons (other key : String) (a : α) (rest : Keyed α) :
    List.lookup other ((key, a) :: rest) = if other = key then some a else rest.lookup other := by
  rw [List.lookup_cons]
  by_cases ho : other = key
  · rw [beq_iff_eq.2 ho, if_pos ho]
  · rw [beq_eq_false_iff_ne.2 ho, if_neg ho]

/-- A key below all others is not there. -/
theorem lookup_eq_none_of_lt {key : String} {members : Keyed α}
    (h : ∀ p ∈ members, key < p.1) : members.lookup key = none := by
  rw [List.lookup_eq_none_iff]
  intro p hp
  exact bne_iff_ne.2 (String.ne_of_lt (h p hp))

theorem Ascending.lookup_update {members : Keyed α} (h : members.Ascending) (key : String)
    (f : Option α → α) (other : String) :
    (Keyed.update key f members).lookup other =
      if other = key then some (f (members.lookup key)) else members.lookup other := by
  fun_induction Keyed.update key f members with
  | case1 => exact lookup_cons ..
  | case2 a rest =>
    simp only [lookup_cons]
    by_cases ho : other = key <;> simp [ho]
  | case3 k a rest hne hlt =>
    have hnone : List.lookup key ((k, a) :: rest) = none :=
      lookup_eq_none_of_lt <| List.forall_mem_cons.2
        ⟨hlt, fun p hp => String.lt_trans hlt ((List.pairwise_cons.1 h).1 p hp)⟩
    rw [lookup_cons, hnone]
  | case4 k a rest hne _ ih =>
    simp only [lookup_cons, ih (List.pairwise_cons.1 h).2, if_neg (Ne.symm hne)]
    by_cases ho : other = k
    · rw [if_pos ho, if_pos ho, if_neg (ho ▸ hne)]
    · rw [if_neg ho, if_neg ho]

theorem Ascending.mem_iff {members : Keyed α} (h : members.Ascending) {key : String} {a : α} :
    (key, a) ∈ members ↔ members.lookup key = some a := by
  induction members with
  | nil => simp
  | cons p rest ih =>
    obtain ⟨hfirst, hrest⟩ := List.pairwise_cons.1 h
    obtain ⟨k, value⟩ := p
    rw [List.mem_cons, lookup_cons, ih hrest, Prod.mk.injEq]
    by_cases hkey : key = k
    · have hnone : List.lookup key rest = none := lookup_eq_none_of_lt (hkey ▸ hfirst)
      rw [if_pos hkey, hnone, Option.some.injEq]
      simp [hkey, eq_comm]
    · simp [hkey]

/-- Values under ascending keys are the same where every key leads to the same. -/
theorem Ascending.ext {a b : Keyed α} (ha : a.Ascending) (hb : b.Ascending)
    (h : ∀ key, a.lookup key = b.lookup key) : a = b := by
  have hnodup {c : Keyed α} (hc : c.Ascending) : c.Nodup :=
    hc.imp fun hlt heq => String.ne_of_lt hlt (congrArg Prod.fst heq)
  refine List.Perm.eq_of_pairwise (fun p q _ _ hpq hqp => ?_) ha hb ?_
  · exact absurd hqp (String.lt_asymm hpq)
  · rw [List.perm_ext_iff_of_nodup (hnodup ha) (hnodup hb)]
    rintro ⟨key, value⟩
    rw [ha.mem_iff, hb.mem_iff, h]

end Keyed

namespace Conformance

/-! ### Levels of a case -/

/-- The mode is the word for both levels, in any letter case. -/
def Case.IsForBoth (c : Case) : Prop :=
  List.Forall₂ (fun letter given => given = letter ∨ given = letter.toUpper)
    "both".toList c.mode.toList

theorem toNat_toUpper {letter : Char} (h : letter.isLower = true) :
    97 ≤ letter.toNat ∧ letter.toNat ≤ 122 ∧ letter.toUpper.toNat = letter.toNat - 32 := by
  have hcode : 97 ≤ letter.toNat ∧ letter.toNat ≤ 122 := by
    delta Char.isLower at h
    simpa [UInt32.le_iff_toNat_le] using h
  have hsmall : 'a'.val ≤ letter.val ∧ letter.val ≤ 'z'.val := by
    simpa [UInt32.le_iff_toNat_le] using hcode
  have hupper : letter.toUpper = _ := dif_pos hsmall
  refine ⟨hcode.1, hcode.2, ?_⟩
  rw [hupper]
  show (letter.val + _).toNat = _
  rw [UInt32.toNat_add]
  show (letter.toNat + 4294967264) % 4294967296 = _
  omega

theorem toNat_toLower (given : Char) : given.toLower.toNat =
    if 65 ≤ given.toNat ∧ given.toNat ≤ 90 then given.toNat + 32 else given.toNat := by
  have hcapital : given.val ≥ 'A'.val ∧ given.val ≤ 'Z'.val ↔
      65 ≤ given.toNat ∧ given.toNat ≤ 90 := by
    simp [UInt32.le_iff_toNat_le]
  by_cases h : given.val ≥ 'A'.val ∧ given.val ≤ 'Z'.val
  · have hlower : given.toLower = _ := dif_pos h
    have hcode := hcapital.1 h
    rw [if_pos hcode, hlower]
    show (given.val + _).toNat = _
    rw [UInt32.toNat_add]
    show (given.toNat + 32) % 4294967296 = _
    omega
  · have hlower : given.toLower = given := dif_neg h
    rw [hlower, if_neg (mt hcapital.2 h)]

/-- A small letter is what itself and its capital have in lower case. -/
theorem toLower_eq_iff {letter given : Char} (h : letter.isLower = true) :
    given.toLower = letter ↔ given = letter ∨ given = letter.toUpper := by
  obtain ⟨hlow, hhigh, hupper⟩ := toNat_toUpper h
  rw [← Char.toNat_inj, ← Char.toNat_inj, ← Char.toNat_inj, hupper, toNat_toLower]
  split <;> omega

theorem Case.isForBoth_iff (c : Case) : c.IsForBoth ↔ c.mode.map Char.toLower = "both" := by
  have hletters : "both".toList = ['b', 'o', 't', 'h'] := by decide
  have hsmall : ∀ letter ∈ ['b', 'o', 't', 'h'], letter.isLower = true := List.all_eq_true.1 rfl
  rw [IsForBoth, ← String.toList_inj, String.toList_map, eq_comm, ← List.forall₂_eq_eq_eq,
    List.forall₂_map_right_iff, hletters, List.forall₂_iff_zip, List.forall₂_iff_zip]
  refine and_congr_right fun _ => forall₃_congr fun letter given hmem => ?_
  rw [eq_comm (b := given.toLower), toLower_eq_iff (hsmall letter (List.of_mem_zip hmem).1)]

theorem Case.runsAt_of_isForBoth {c : Case} (h : c.IsForBoth) (level : CheckLevel) :
    c.runsAt level = true := by
  rw [Case.runsAt, c.isForBoth_iff.1 h]
  rfl

/-- Any other case is run at the level that its mode names, and at no other. -/
theorem Case.runsAt_iff {c : Case} (h : ¬ c.IsForBoth) (level : CheckLevel) :
    c.runsAt level = true ↔ level = CheckLevel.ofText c.mode := by
  have hmode : (c.mode.map Char.toLower == "both") = false :=
    beq_eq_false_iff_ne.2 (mt c.isForBoth_iff.2 h)
  rw [Case.runsAt, hmode, Bool.false_or, beq_iff_eq, eq_comm]

/-! ### Verdicts -/

theorem outputDifference_ne_empty (expected actual : String) :
    outputDifference expected actual ≠ "" := by
  unfold outputDifference
  split
  · decide
  · simp [String.join]

theorem errnoDifference_ne_empty (expected actual : Errno) :
    errnoDifference expected actual ≠ "" := fun h =>
  absurd (String.append_eq_empty_iff.1 h).2 (by decide)

/-- The differences say something unless there are none. -/
theorem Verdict.differences_eq_empty_iff (c : Case) (run : CaseRun) :
    differences c run = "" ↔ run.output = c.expectedOutput ∧ run.errno = c.expectedErrno := by
  have houtput : (if run.output == c.expectedOutput then ""
      else outputDifference c.expectedOutput run.output) = "" ↔ run.output = c.expectedOutput := by
    split <;> simp_all [outputDifference_ne_empty]
  have herrno : (if run.errno == c.expectedErrno then ""
      else errnoDifference c.expectedErrno run.errno) = "" ↔ run.errno = c.expectedErrno := by
    split <;> simp_all [errnoDifference_ne_empty]
  rw [differences, String.append_eq_empty_iff, houtput, herrno]

theorem Verdict.compare_passed (family mode : String) (c : Case) (run : CaseRun) :
    (compare family mode c run).passed = true ↔
      run.output = c.expectedOutput ∧ run.errno = c.expectedErrno := by
  simp [compare]

theorem Verdict.compare_difference (family mode : String) (c : Case) (run : CaseRun) :
    (compare family mode c run).difference = none ↔
      (compare family mode c run).passed = true := by
  rw [compare_passed, ← differences_eq_empty_iff]
  simp [compare, difference?]

/-- The verdict is on a run of the case at the level. It shows what the run shows, or why
the case cannot be run; it passes when that is what the case expects, and shows a
difference when it does not pass. -/
structure Verdict.IsOn (family : String) (level : CheckLevel) (c : Case) (v : Verdict) : Prop where
  case : v.caseName = c.name ∧ v.clause = c.clause
  family : v.family = family
  mode : v.mode = level.name
  expected : v.expected = c.expectedOutput ∧ v.expectedErrno = c.expectedErrno
  run : ∀ run, c.run level = .ok run → v.actual = run.output ∧ v.actualErrno = run.errno
  failure : ∀ e, c.run level = .error e → v.actual = "unsupported:" ++ e.message ∧ v.actualErrno = 0
  passed : v.passed = true ↔ v.actual = v.expected ∧ v.actualErrno = v.expectedErrno
  difference : v.difference = none ↔ v.passed = true

theorem Case.verdict_isOn (family : String) (level : CheckLevel) (c : Case) :
    (c.verdict family level).IsOn family level c := by
  unfold Case.verdict
  cases hrun : c.run level with
  | ok run =>
    refine ⟨⟨rfl, rfl⟩, rfl, rfl, ⟨rfl, rfl⟩, fun run' h => ?_, fun e h => ?_,
      Verdict.compare_passed .., Verdict.compare_difference ..⟩
    · cases hrun.symm.trans h
      exact ⟨rfl, rfl⟩
    · cases hrun.symm.trans h
  | error e =>
    refine ⟨⟨rfl, rfl⟩, rfl, rfl, ⟨rfl, rfl⟩, fun run' h => ?_, fun e' h => ?_,
      Verdict.compare_passed .., Verdict.compare_difference ..⟩
    · cases hrun.symm.trans h
    · cases hrun.symm.trans h
      exact ⟨rfl, rfl⟩

/-- The cases that are run at a level have their verdicts in order, one each. -/
theorem Suite.verdicts_isOn (s : Suite) (level : CheckLevel) :
    List.Forall₂ (Verdict.IsOn s.family level) (s.cases.filter (·.runsAt level))
      (s.verdicts level) := by
  rw [Suite.verdicts, List.forall₂_map_right_iff, List.forall₂_same]
  exact fun c _ => c.verdict_isOn s.family level

/-! ### Tallies -/

/-- How many verdicts on a family passed and failed. -/
def Tally.count (verdicts : List Verdict) (family : String) : Tally where
  passed := verdicts.countP fun v => v.family == family && v.passed
  failed := verdicts.countP fun v => v.family == family && !v.passed

/-- The tallies of the families say what the verdicts are, and have no place for a family
without one. -/
structure Accounted (families : Keyed Tally) (verdicts : List Verdict) : Prop where
  ascending : families.Ascending
  tally : ∀ family, families.lookup family =
    if family ∈ verdicts.map (·.family) then some (Tally.count verdicts family) else none
  passed : (families.map (·.2.passed)).sum = verdicts.countP (·.passed)
  failed : (families.map (·.2.failed)).sum = verdicts.countP (!·.passed)

theorem Tally.count_concat (verdicts : List Verdict) (v : Verdict) (family : String) :
    Tally.count (verdicts ++ [v]) family =
      if family = v.family then (Tally.count verdicts family).add v.passed
      else Tally.count verdicts family := by
  unfold Tally.count Tally.add
  by_cases hfamily : family = v.family
  · subst hfamily
    cases hpassed : v.passed <;> simp [hpassed]
  · have hne : (v.family == family) = false := beq_eq_false_iff_ne.2 (Ne.symm hfamily)
    simp [hfamily, hne]

/-- A family without a verdict counts as one without passes and failures. -/
theorem Accounted.getD_lookup {families : Keyed Tally} {verdicts : List Verdict}
    (h : Accounted families verdicts) (family : String) :
    (families.lookup family).getD .zero = Tally.count verdicts family := by
  rw [h.tally]
  split
  · rfl
  · rename_i hnone
    have hother : ∀ v ∈ verdicts, (v.family == family) = false := fun v hv =>
      beq_eq_false_iff_ne.2 fun heq => hnone (List.mem_map.2 ⟨v, hv, heq⟩)
    unfold Tally.count
    rw [List.countP_eq_zero.2 fun v hv => by simp [hother v hv],
      List.countP_eq_zero.2 fun v hv => by simp [hother v hv]]
    rfl

/-- What a number of each tally comes to after one of them was counted up. -/
theorem sum_tallyVerdict (number : Tally → Nat) (more : Nat) (families : Keyed Tally) (v : Verdict)
    (hzero : number Tally.zero = 0)
    (hadd : ∀ t : Tally, number (t.add v.passed) = number t + more) :
    ((tallyVerdict families v).map (number ·.2)).sum =
      (families.map (number ·.2)).sum + more := by
  unfold tallyVerdict
  induction families with
  | nil => simp [Keyed.update, hadd, hzero]
  | cons p rest ih =>
    obtain ⟨k, t⟩ := p
    unfold Keyed.update
    split
    · simp only [List.map_cons, List.sum_cons, Option.getD_some, hadd]
      omega
    · split
      · simp only [List.map_cons, List.sum_cons, Option.getD_none, hadd, hzero]
        omega
      · simp only [List.map_cons, List.sum_cons, ih]
        omega

/-- One more verdict is counted under its family and nowhere else. -/
theorem Accounted.concat {families : Keyed Tally} {verdicts : List Verdict}
    (h : Accounted families verdicts) (v : Verdict) :
    Accounted (tallyVerdict families v) (verdicts ++ [v]) where
  ascending := h.ascending.update _ _
  tally family := by
    rw [tallyVerdict, h.ascending.lookup_update, h.getD_lookup, h.tally, Tally.count_concat]
    by_cases hfamily : family = v.family
    · subst hfamily
      simp
    · simp [hfamily]
  passed := by
    rw [sum_tallyVerdict Tally.passed v.passed.toNat families v rfl, h.passed, List.countP_append]
    · cases hpassed : v.passed <;> simp [hpassed]
    · intro t
      cases v.passed <;> rfl
  failed := by
    rw [sum_tallyVerdict Tally.failed (!v.passed).toNat families v rfl, h.failed,
      List.countP_append]
    · cases hpassed : v.passed <;> simp [hpassed]
    · intro t
      cases v.passed <;> rfl

/-- Verdicts counted one after another are all accounted for. -/
theorem Accounted.foldl {families : Keyed Tally} {before : List Verdict}
    (h : Accounted families before) (verdicts : List Verdict) :
    Accounted (verdicts.foldl tallyVerdict families) (before ++ verdicts) := by
  induction verdicts generalizing families before with
  | nil => rwa [List.append_nil]
  | cons v verdicts ih =>
    rw [List.foldl_cons, ← List.singleton_append, ← List.append_assoc]
    exact ih (h.concat v)

theorem accounted_nil : Accounted [] [] := ⟨.nil, fun _ => rfl, rfl, rfl⟩

theorem accounted_byFamily (verdicts : List Verdict) :
    Accounted (Summary.ofVerdicts verdicts).byFamily verdicts := accounted_nil.foldl verdicts

/-- The order of the verdicts does not show in the tallies. -/
theorem Accounted.eq_of_perm {families families' : Keyed Tally} {verdicts others : List Verdict}
    (h : Accounted families verdicts) (h' : Accounted families' others)
    (hperm : verdicts.Perm others) : families' = families := by
  refine h'.ascending.ext h.ascending fun family => ?_
  have hmem : family ∈ others.map (·.family) ↔ family ∈ verdicts.map (·.family) :=
    (hperm.map _).mem_iff.symm
  rw [h.tally, h'.tally, Tally.count, Tally.count, hperm.countP_eq, hperm.countP_eq]
  simp only [hmem]

/-! ### Totals -/

theorem totalPassed_eq (families : Keyed Tally) :
    totalPassed families = (families.map (·.2.passed)).sum := by
  rw [totalPassed, List.sum_eq_foldl, List.foldl_map]

/-- Every verdict either passes or fails. -/
theorem countP_passed_add (verdicts : List Verdict) :
    verdicts.countP (·.passed) + verdicts.countP (!·.passed) = verdicts.length := by
  rw [List.length_eq_countP_add_countP (·.passed)]
  simp

theorem Summary.passed_ofVerdicts (verdicts : List Verdict) :
    (Summary.ofVerdicts verdicts).passed = verdicts.countP (·.passed) :=
  (totalPassed_eq _).trans (accounted_byFamily verdicts).passed

theorem Summary.failed_ofVerdicts (verdicts : List Verdict) :
    (Summary.ofVerdicts verdicts).failed = verdicts.countP (!·.passed) := by
  show verdicts.length - (Summary.ofVerdicts verdicts).passed = _
  rw [Summary.passed_ofVerdicts, ← countP_passed_add, Nat.add_sub_cancel_left]

theorem Summary.allPassed_iff (verdicts : List Verdict) :
    (ofVerdicts verdicts).allPassed = true ↔ (ofVerdicts verdicts).failures = [] := by
  rw [allPassed, beq_iff_eq, failed_ofVerdicts, List.countP_eq_length_filter,
    List.length_eq_zero_iff]
  rfl

/-- **No case is lost, and no verdict contradicts itself or goes uncounted.** At each level
the cases that are run there have one verdict each, in order; a case for both levels is
run at both, and every other case at exactly one. A verdict shows no difference just when
it passes, which is when output and error number are the expected ones. A summary keeps
the verdicts as they come; its totals and the tallies of its families count them, the
tallies come to the totals, and no order of the verdicts shows in them. -/
theorem suite_accounts_close (s : Suite) (verdicts : List Verdict) :
    let summary := Summary.ofVerdicts verdicts
    (∀ level, List.Forall₂ (Verdict.IsOn s.family level) (s.cases.filter (·.runsAt level))
        (s.verdicts level)) ∧
      (∀ c : Case, (c.IsForBoth → ∀ level, c.runsAt level = true) ∧
        (¬ c.IsForBoth → ∃! level, c.runsAt level = true)) ∧
      (∀ (family mode : String) (c : Case) (run : CaseRun),
        let v := Verdict.compare family mode c run
        (v.difference = none ↔ v.passed = true) ∧
          (v.passed = true ↔ run.output = c.expectedOutput ∧ run.errno = c.expectedErrno)) ∧
      summary.verdicts = verdicts ∧ summary.total = verdicts.length ∧
      summary.total = summary.passed + summary.failed ∧
      summary.passed = verdicts.countP (·.passed) ∧
      (summary.allPassed = true ↔ summary.failures = []) ∧
      Accounted summary.byFamily verdicts ∧
      (summary.byFamily.map (·.2.passed)).sum = summary.passed ∧
      (summary.byFamily.map (·.2.failed)).sum = summary.failed ∧
      ∀ others, verdicts.Perm others → (Summary.ofVerdicts others).byFamily = summary.byFamily := by
  intro summary
  have hpassed : summary.passed = verdicts.countP (·.passed) := Summary.passed_ofVerdicts verdicts
  have hfailed : summary.failed = verdicts.countP (!·.passed) := Summary.failed_ofVerdicts verdicts
  have hall : Accounted summary.byFamily verdicts := accounted_byFamily verdicts
  have htotal : summary.total = summary.passed + summary.failed := by
    rw [hpassed, hfailed]
    exact (countP_passed_add verdicts).symm
  refine ⟨s.verdicts_isOn, fun c => ⟨Case.runsAt_of_isForBoth, fun h => ?_⟩,
    fun family mode c run => ⟨Verdict.compare_difference .., Verdict.compare_passed ..⟩,
    rfl, rfl, htotal, hpassed, Summary.allPassed_iff verdicts, hall, ?_, ?_, fun others hperm => ?_⟩
  · exact ⟨CheckLevel.ofText c.mode, (Case.runsAt_iff h _).2 rfl,
      fun level => (Case.runsAt_iff h _).1⟩
  · rw [hall.passed, hpassed]
  · rw [hall.failed, hfailed]
  · exact hall.eq_of_perm (accounted_byFamily others) hperm

end Conformance
end CheckedFormat
