import CheckedFormat.Proofs.PrintGrammar
import CheckedFormat.Proofs.ScanGrammar
/-! One format behind another.

A directive ends with its letter, whatever stands behind it, so a format that is read goes
on being read as it is when another is put behind it. Only runs can meet at the seam: two
runs of one kind become one run there. `FormatGrammar.Joins` says what the runs of a
grammar owe for that, and `Joins.parse_append` and `parse_append_error` what comes of it:
the segments of the whole are those of the two formats, up to one pair of runs, and a fault
of the second format is found where it stands behind the first. -/
namespace CheckedFormat

theorem StopsAt.append_of_ne_nil {p : Byte → Bool} {front : List Byte} (h : StopsAt p front)
    (hfront : front ≠ []) (rest : List Byte) : StopsAt p (front ++ rest) := by
  cases front with
  | nil => exact absurd rfl hfront
  | cons b front => exact .cons _ (h b rfl)

theorem MaximalRun.append {p : Byte → Bool} {run run' rest : List Byte}
    (h : MaximalRun p run []) (h' : MaximalRun p run' rest) : MaximalRun p (run ++ run') rest where
  nonempty := fun hnil => h.nonempty (List.append_eq_nil_iff.1 hnil).1
  all := fun b hb => (List.mem_append.1 hb).elim (h.all b) (h'.all b)
  stops := h'.stops

/-- A run ends where a run of another class begins. -/
theorem MaximalRun.apart {p q : Byte → Bool} {run run' rest : List Byte}
    (hapart : ∀ b, q b = true → p b = false) (h : MaximalRun p run [])
    (h' : MaximalRun q run' rest) : MaximalRun p run (run' ++ rest) := by
  refine ⟨h.nonempty, h.all, ?_⟩
  have hstops : StopsAt p run' := fun b hb => hapart b (h'.all b (List.mem_of_mem_head? hb))
  exact hstops.append_of_ne_nil h'.nonempty rest

/-- The segments of two formats, one behind the other: they stay as they are, or the last of
the first and the first of the second become one. -/
inductive Joined {Segment : Type} (Merged : Segment → Segment → Segment → Prop) :
    List Segment → List Segment → List Segment → Prop where
  | apart (first second : List Segment) : Joined Merged first second (first ++ second)
  | merged {x y z : Segment} (h : Merged x y z) (front rest : List Segment) :
      Joined Merged (front ++ [x]) (y :: rest) (front ++ z :: rest)

theorem Joined.cons {Segment : Type} {Merged : Segment → Segment → Segment → Prop}
    {first second all : List Segment} (h : Joined Merged first second all) (segment : Segment) :
    Joined Merged (segment :: first) second (segment :: all) := by
  cases h with
  | apart => exact .apart (segment :: first) second
  | merged hmerged front rest => exact .merged hmerged (segment :: front) rest

namespace FormatGrammar
variable {Segment : Type} {G : FormatGrammar Segment}

theorem IsFormat.append {first second : List Byte} (h : G.IsFormat first)
    (h' : G.IsFormat second) : G.IsFormat (first ++ second) := by
  induction h with
  | nil => exact h'
  | ordinary hb _ ih => exact .ordinary hb ih
  | directive hd _ ih =>
    rw [List.append_assoc]
    exact .directive hd ih

/-- What runs owe where formats meet. -/
structure Joins (G : FormatGrammar Segment) (Merged : Segment → Segment → Segment → Prop) :
    Prop where
  /-- A run that ends before the end of the text ends there whatever follows. -/
  stays : ∀ {segment run rest}, G.Run segment run rest → rest ≠ [] → ∀ more,
    G.Run segment run (rest ++ more)
  /-- A run at the end of the text ends where the next run begins, or they are one. -/
  meets : ∀ {x y run run' rest}, G.Run x run [] → G.Run y run' rest →
    G.Run x run (run' ++ rest) ∨ ∃ z, Merged x y z ∧ G.Run z (run ++ run') rest

namespace Joins
variable {parse : List Byte → Except Malformed (Segment × List Byte)}
  {parseRest : Nat → List Byte → Except FormatError (List Segment)}
  {Merged : Segment → Segment → Segment → Prop} {first second : List Byte}
  {segments more : List Segment}

/-- A run at the end of a text, in front of another format. -/
theorem tiles_run (J : G.Joins Merged) (R : G.Reads parse parseRest) {segment : Segment}
    {run : List Byte} (hrun : G.Run segment run []) (h : G.Tiles more second) :
    ∃ all, G.Tiles all (run ++ second) ∧ Joined Merged [segment] more all := by
  cases h with
  | nil => exact ⟨[segment], .run hrun .nil, .apart [segment] []⟩
  | @run next run' rest later hnext hrest =>
    rcases J.meets hrun hnext with hapart | ⟨whole, hmerged, hwhole⟩
    · exact ⟨_, .run hapart (.run hnext hrest), .apart [segment] _⟩
    · rw [← List.append_assoc]
      exact ⟨_, .run hwhole hrest, .merged hmerged [] later⟩
  | @directive _ body rest _ hbody hrest =>
    have hapart : G.Run segment run ([] ++ opener :: (body ++ rest)) :=
      R.run_before.2 hrun
    exact ⟨_, .run hapart (.directive hbody hrest), .apart [segment] _⟩

/-- The segments of two formats tile the one behind the other, up to what becomes one at the
seam. -/
theorem tiles_append (J : G.Joins Merged) (R : G.Reads parse parseRest)
    (hfirst : G.Tiles segments first) (hsecond : G.Tiles more second) :
    ∃ all, G.Tiles all (first ++ second) ∧ Joined Merged segments more all := by
  induction hfirst with
  | nil => exact ⟨more, hsecond, .apart [] more⟩
  | @run segment run rest later hrun hrest ih =>
    cases rest with
    | nil =>
      obtain rfl : later = [] := by
        have hnone : parseRest 0 [] = .ok later := R.ok_iff.2 hrest
        rw [R.parseRest_nil] at hnone
        exact (Except.ok.inj hnone).symm
      rw [List.append_nil]
      exact J.tiles_run R hrun hsecond
    | cons b rest =>
      obtain ⟨all, htiles, hjoined⟩ := ih
      rw [List.append_assoc]
      exact ⟨_, .run (J.stays hrun (List.cons_ne_nil b rest) second) htiles, hjoined.cons segment⟩
  | @directive segment body rest later hbody _ ih =>
    obtain ⟨all, htiles, hjoined⟩ := ih
    rw [List.cons_append, List.append_assoc]
    exact ⟨_, .directive hbody htiles, hjoined.cons segment⟩

end Joins

namespace Reads
variable {parse : List Byte → Except Malformed (Segment × List Byte)}
  {parseRest : Nat → List Byte → Except FormatError (List Segment)}
  {Merged : Segment → Segment → Segment → Prop} {first second : List Byte}
  {segments more : List Segment} (R : G.Reads parse parseRest)
include R

/-- Two formats that are read are read behind one another. -/
theorem parse_append (J : G.Joins Merged) (hfirst : parseRest first.length first = .ok segments)
    (hsecond : parseRest second.length second = .ok more) :
    ∃ all, parseRest (first ++ second).length (first ++ second) = .ok all ∧
      Joined Merged segments more all := by
  obtain ⟨all, htiles, hjoined⟩ := J.tiles_append R (R.ok_iff.1 hfirst) (R.ok_iff.1 hsecond)
  exact ⟨all, R.ok_iff.2 htiles, hjoined⟩

/-- What is wrong with a format is wrong behind another one too, as much further on. -/
theorem parse_append_error {e : FormatError}
    (hfirst : parseRest first.length first = .ok segments)
    (hsecond : parseRest second.length second = .error e) :
    parseRest (first ++ second).length (first ++ second) =
      .error ⟨first.length + e.offset, e.cause⟩ := by
  have hformat : G.IsFormat first := R.accepts_iff.1 ⟨segments, hfirst⟩
  obtain ⟨hfront, hnone, hbreaks⟩ := R.error_iff.1 hsecond
  have hrefused := Refused.at (hformat.append hfront) hnone hbreaks
  rw [List.append_assoc, List.length_append] at hrefused
  exact R.error_iff.2 hrefused

end Reads
end FormatGrammar

/-! ### Printing -/

namespace PrintSegment

/-- Literals that meet are one literal. -/
inductive Merged : PrintSegment → PrintSegment → PrintSegment → Prop where
  | literal (run run' : List Byte) : Merged (.literal run) (.literal run') (.literal (run ++ run'))

end PrintSegment

theorem PrintGrammar.joins : PrintGrammar.grammar.Joins PrintSegment.Merged where
  stays := by
    intro segment run rest h hrest more
    obtain ⟨hrun⟩ := h
    exact .literal ⟨hrun.nonempty, hrun.all, hrun.stops.append_of_ne_nil hrest more⟩
  meets := by
    intro x y run run' rest h h'
    obtain ⟨hrun⟩ := h
    obtain ⟨hrun'⟩ := h'
    exact .inr ⟨_, .literal run run', .literal (hrun.append hrun')⟩

/-! ### Scanning -/

namespace ScanSegment

/-- White space that meets is one run of white space, and literals that meet are one
literal. -/
inductive Merged : ScanSegment → ScanSegment → ScanSegment → Prop where
  | space : Merged .space .space .space
  | literal (run run' : List Byte) : Merged (.literal run) (.literal run') (.literal (run ++ run'))

end ScanSegment

theorem ScanFormat.isSpace_of_isOrdinary {b : Byte} (h : isOrdinary b = true) :
    b.isSpace = false := by
  simp_all [isOrdinary]

theorem ScanFormat.isOrdinary_of_isSpace {b : Byte} (h : b.isSpace = true) :
    isOrdinary b = false := by
  simp [isOrdinary, h]

theorem ScanGrammar.joins : ScanGrammar.grammar.Joins ScanSegment.Merged where
  stays := by
    intro segment run rest h hrest more
    cases h with
    | space hrun => exact .space ⟨hrun.nonempty, hrun.all, hrun.stops.append_of_ne_nil hrest more⟩
    | literal hrun =>
      exact .literal ⟨hrun.nonempty, hrun.all, hrun.stops.append_of_ne_nil hrest more⟩
  meets := by
    intro x y run run' rest h h'
    cases h with
    | space hrun =>
      cases h' with
      | space hrun' => exact .inr ⟨_, .space, .space (hrun.append hrun')⟩
      | literal hrun' =>
        exact .inl (.space (hrun.apart (fun _ => ScanFormat.isSpace_of_isOrdinary) hrun'))
    | literal hrun =>
      cases h' with
      | space hrun' =>
        exact .inl (.literal (hrun.apart (fun _ => ScanFormat.isOrdinary_of_isSpace) hrun'))
      | literal hrun' => exact .inr ⟨_, .literal run run', .literal (hrun.append hrun')⟩

end CheckedFormat
