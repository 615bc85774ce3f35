import CheckedFormat.Proofs.Record
import CheckedFormat.Proofs.StoredFields
/-! Records of fields, scanned back.

Scanning the output of a printed record with the same conversions and length
modifiers, into destinations that lie apart, stores every value again
(`scan_of_printed_record`). A directive skips the blanks in front of its word, takes
the word, which white space or the end stands behind, and stores what the field
stored (`convert_field`); what lies at other destinations stays. -/
namespace CheckedFormat
namespace Scan
open Arena (ChangesWithin)

variable {S : Type} [ByteSource S] (V : SourceView S)

/-- The scan stands in front of this text. -/
def Stands (s : State S Arena) (ahead : List Byte) : Prop := ∃ behind, s.reader.At V behind ahead

/-- What a directive left that stored bytes at an address: it stands in front of what
is ahead, offers the slots that are left, and changed nothing but the bytes. -/
structure StoresField (address : Nat) (stored ahead : List Byte) (slots : List Slot)
    (s t : State S Arena) : Prop where
  stands : Stands V t ahead
  offers : t.frame.arguments.Offers slots
  holds : t.frame.memory.Holds address stored
  elsewhere : ChangesWithin (fun x => address ≤ x ∧ x < address + stored.length)
    s.frame.memory t.frame.memory

variable {V} {s : State S Arena} {before ahead word stored : List Byte} {slots : List Slot}
  {pointer : Word}

theorem StoresField.of_sameStores {t u : State S Arena} {address : Nat} (hsame : SameStores s t)
    (h : StoresField V address stored ahead slots t u) :
    StoresField V address stored ahead slots s u :=
  { h with elsewhere := hsame.2 ▸ h.elsewhere }

/-! ### Reading -/

theorem stands_afterReading {α : Type} {operation : Reader S → α × Reader S}
    {reading : TextReading α} (hcomputes : Reader.Computes V operation reading)
    (h : Stands V s ahead) :
    (operation s.reader).1 = (reading ahead).1 ∧
      Stands V (afterReading operation s) (ahead.drop (reading ahead).2) := by
  obtain ⟨behind, hat⟩ := h
  obtain ⟨hresult, hplace⟩ := hcomputes hat
  exact ⟨hresult, _, hplace⟩

/-- Blanks are skipped up to the text behind them. -/
theorem stands_afterSpace (h : Stands V s (before ++ ahead)) (hbefore : IsBlank before)
    (hahead : StopsAt Byte.isSpace ahead) :
    (Reader.skipSpace s.reader).1 = ahead.any (fun b => !b.isSpace) ∧
      Stands V (afterReading Reader.skipSpace s) ahead := by
  obtain ⟨hresult, hstands⟩ := stands_afterReading Reader.skipSpace_computes h
  have hcount : ((before ++ ahead).takeWhile Byte.isSpace).length = before.length := by
    rw [takeWhile_of_stopsAt hbefore hahead]
  have hrest : (before ++ ahead).drop before.length = ahead := List.drop_left
  have hnone : before.any (fun b => !b.isSpace) = false := by
    simpa [IsBlank] using hbefore
  refine ⟨?_, ?_⟩
  · rw [hresult]
    show (before ++ ahead).any (fun b => !b.isSpace) = _
    rw [List.any_append, hnone, Bool.false_or]
  · rw [TextReading.skipSpace, hcount, hrest] at hstands
    exact hstands

/-- A word that is not empty and not white space stops the skipping of blanks. -/
theorem stopsAt_word (hsome : word ≠ []) (hsolid : ∀ b ∈ word, b.isSpace = false)
    (rest : List Byte) : StopsAt Byte.isSpace (word ++ rest) := by
  cases word with
  | nil => exact absurd rfl hsome
  | cons b word => exact .cons _ (hsolid b List.mem_cons_self)

/-- A directive that skips white space goes on at the word. -/
theorem afterSpace_of_word (h : Stands V s (before ++ (word ++ ahead)))
    (hbefore : IsBlank before) (hsome : word ≠ []) (hsolid : ∀ b ∈ word, b.isSpace = false) :
    (∀ f : Step S Arena Progress, afterSpace f s = f (afterReading Reader.skipSpace s)) ∧
      Stands V (afterReading Reader.skipSpace s) (word ++ ahead) := by
  obtain ⟨hresult, hstands⟩ := stands_afterSpace h hbefore (stopsAt_word hsome hsolid ahead)
  refine ⟨fun f => ?_, hstands⟩
  have hany : (word ++ ahead).any (fun b => !b.isSpace) = true := by
    cases word with
    | nil => exact absurd rfl hsome
    | cons b word => simp [hsolid b List.mem_cons_self]
  unfold afterSpace
  rw [bind_reading, hresult, hany]
  rfl

/-! ### Storing -/

/-- Pieces that are stored behind the reading lie at the address that was passed. -/
theorem Deposits.field {pieces : List (List Byte)}
    {result : EStateM.Result ScanError (State S Arena) Progress}
    (h : Deposits false pieces s result) (hstands : Stands V s ahead)
    (hoffers : s.frame.arguments.Offers (⟨.pointer, pointer⟩ :: slots))
    (hin : s.frame.memory.InBounds pointer.toNat pieces.flatten.length) :
    ∃ t, result = .ok .assigned t ∧
      StoresField V pointer.toNat pieces.flatten ahead slots s t := by
  obtain ⟨later, hassigned, hholds, hchanges⟩ := h.exists_assigned hoffers hin
  exact ⟨_, hassigned, hstands, hoffers.advance, hholds, hchanges⟩

/-! ### Directives -/

theorem convertInteger_field {spec : ScanSpec} {base : IntegerToken.Base} {signed : Bool} {size : Nat}
    (hspec : spec.suppress = false ∧ spec.width = none) (hsize : integerSizes.contains size = true)
    (hword : RecordField.IsNumber base signed size stored word) (hbefore : IsBlank before)
    (hahead : StopsAt (fun b => !b.isSpace) ahead) (hstands : Stands V s (before ++ (word ++ ahead)))
    (hoffers : s.frame.arguments.Offers (⟨.pointer, pointer⟩ :: slots))
    (hin : s.frame.memory.InBounds pointer.toNat stored.length) :
    ∃ t, convertInteger spec base signed size s = .ok .assigned t ∧
      StoresField V pointer.toNat stored ahead slots s t := by
  obtain ⟨hsome, hsolid⟩ := hword.solid
  obtain ⟨v, hreads, hstored⟩ := hword
  obtain ⟨hspace, hstands⟩ := afterSpace_of_word hstands hbefore hsome fun b hb => (hsolid b hb).1
  obtain ⟨htoken, hbehind⟩ := stands_afterReading
    (Reader.token_computes (IntegerToken.recogniser base) none) hstands
  rw [hreads.token hahead] at htoken hbehind
  replace hbehind : Stands V _ ((word ++ ahead).drop word.length) := hbehind
  rw [List.drop_left] at hbehind
  have hsame := (sameStores_afterReading Reader.skipSpace s).trans
    (sameStores_afterReading (Reader.token (IntegerToken.recogniser base) none) _)
  have hpiece : [stored].flatten = stored := List.flatten_singleton
  rw [← hsame.1] at hoffers
  rw [← hsame.2, ← hpiece, ← hstored] at hin
  obtain ⟨t, hok, hfield⟩ := (storeInteger_deposits hsize false _ _).field hbehind hoffers hin
  rw [hstored, hpiece] at hfield
  refine ⟨t, ?_, hfield.of_sameStores hsame⟩
  unfold convertInteger
  rw [hspace, bind_reading, hspec.2, htoken]
  dsimp only
  rw [hspec.1, hreads.value]
  exact hok

theorem convertString_field {spec : ScanSpec} (hspec : spec.suppress = false ∧ spec.width = none)
    (hsome : word ≠ []) (hsolid : ∀ b ∈ word, b.isSpace = false) (hbefore : IsBlank before)
    (hahead : StopsAt (fun b => !b.isSpace) ahead) (hstands : Stands V s (before ++ (word ++ ahead)))
    (hoffers : s.frame.arguments.Offers (⟨.pointer, pointer⟩ :: slots))
    (hin : s.frame.memory.InBounds pointer.toNat (word ++ [0]).length) :
    ∃ t, convertString spec s = .ok .assigned t ∧
      StoresField V pointer.toNat (word ++ [0]) ahead slots s t := by
  obtain ⟨hspace, hstands⟩ := afterSpace_of_word hstands hbefore hsome hsolid
  obtain ⟨hrun, hbehind⟩ := stands_afterReading
    (Reader.takeWhile_computes (fun b => !b.isSpace) none) hstands
  have hword : TextReading.run (fun b => !b.isSpace) none (word ++ ahead) = word :=
    takeWhile_of_stopsAt (fun b hb => by simp [hsolid b hb]) hahead
  have hrest : (word ++ ahead).drop word.length = ahead := List.drop_left
  rw [TextReading.takeWhile, hword] at hrun
  rw [TextReading.takeWhile, hword, hrest] at hbehind
  have hsame := (sameStores_afterReading Reader.skipSpace s).trans
    (sameStores_afterReading (Reader.takeWhile (fun b => !b.isSpace) none) _)
  rw [← hsame.1] at hoffers
  rw [← hsame.2] at hin
  obtain ⟨t, hok, hfield⟩ := (storeText_deposits false true word _).field hbehind hoffers hin
  refine ⟨t, ?_, hfield.of_sameStores hsame⟩
  unfold convertString
  rw [hspace, bind_reading, hspec.1, hspec.2, hrun]
  exact hok

/-- The directive of a field takes its word and stores what the field stores. -/
theorem convert_field {f : RecordField} (hword : f.IsWord word) (hbefore : IsBlank before)
    (hahead : StopsAt (fun b => !b.isSpace) ahead) (hstands : Stands V s (before ++ (word ++ ahead)))
    (hoffers : s.frame.arguments.Offers (f.pointer :: slots))
    (hin : s.frame.memory.InBounds f.destination.toNat f.stored.length) :
    ∃ t, matchSegment (.directive f.scanSpec) s = .ok .assigned t ∧
      StoresField V f.destination.toNat f.stored ahead slots s t := by
  have hsize : integerSizes.contains f.directive.length.integerSize = true := by
    cases f.directive.length <;> decide
  have hsolid := hword.solid
  have hspec : f.scanSpec.suppress = false ∧ f.scanSpec.width = none := ⟨rfl, rfl⟩
  have hconvert : f.scanSpec.conversion = .letter f.directive.conversion := rfl
  have hlength : f.scanSpec.length = f.directive.length := rfl
  unfold RecordField.IsWord at hword
  show ∃ t, convert f.scanSpec s = .ok .assigned t ∧ _
  unfold convert
  rw [hconvert, hlength]
  cases hconversion : f.directive.conversion
  all_goals rw [hconversion] at hword
  case d | u | o | x | X =>
    exact convertInteger_field hspec hsize hword hbefore hahead hstands hoffers hin
  case p => exact convertInteger_field hspec rfl hword hbefore hahead hstands hoffers hin
  case s =>
    have hstored : f.stored = word ++ [0] := by
      rw [RecordField.stored, hconversion, hword.1]
    rw [hstored] at hin ⊢
    exact convertString_field hspec hsolid.1 (fun b hb => (hsolid.2 b hb).1) hbefore hahead hstands
      hoffers hin
  all_goals exact hword.elim

end Scan

/-! ### Records -/

namespace RecordField

/-- The address is in the range that the field's destination needs. -/
def covers (f : RecordField) (x : Nat) : Prop :=
  f.destination.toNat ≤ x ∧ x < f.destination.toNat + f.stored.length

/-- The destinations of two fields do not overlap. -/
def Apart (f g : RecordField) : Prop :=
  f.destination.toNat + f.stored.length ≤ g.destination.toNat ∨
    g.destination.toNat + g.stored.length ≤ f.destination.toNat

theorem Apart.not_covers {f g : RecordField} (h : f.Apart g) {x : Nat} (hx : f.covers x) :
    ¬ g.covers x := by
  unfold Apart at h
  unfold covers at hx ⊢
  omega

end RecordField

/-- Behind a field comes white space, or the end. -/
theorem Printed.stopsAt {rest : List RecordField} {text : List Byte} (h : Printed rest text)
    {blank : List Byte} (hblank : IsBlank blank) : StopsAt (fun b => !b.isSpace) (blank ++ text) := by
  cases blank with
  | cons b blank => exact .cons _ (by simp [hblank b List.mem_cons_self])
  | nil =>
    cases h with
    | nil => exact .nil _
    | @cons f rest piece text hprints hrest =>
      obtain ⟨bytes, hsome, hgap⟩ := f.printGap
      cases bytes with
      | nil => exact absurd rfl hsome
      | cons b bytes => exact .cons _ (by simp [hgap b List.mem_cons_self])

theorem IsBlank.ne_zero {text : List Byte} (h : IsBlank text) : ∀ b ∈ text, b ≠ 0 := by
  intro b hb
  have hspace := h b hb
  rintro rfl
  revert hspace
  decide

/-- What a field prints has no zero byte. -/
theorem RecordField.Prints.ne_zero {f : RecordField} {piece : List Byte} (h : f.Prints piece) :
    ∀ b ∈ piece, b ≠ 0 := by
  obtain ⟨word, ⟨before, behind, rfl, hbefore, hbehind⟩, hword⟩ := h
  intro b hb
  rcases List.mem_append.1 hb with hb | hb
  · exact hbefore.ne_zero b hb
  · rcases List.mem_append.1 hb with hb | hb
    · exact (hword.solid.2 b hb).2
    · exact hbehind.ne_zero b hb

theorem Printed.ne_zero {rest : List RecordField} {text : List Byte} (h : Printed rest text) :
    ∀ b ∈ text, b ≠ 0 := by
  induction h with
  | nil => exact nofun
  | @cons f rest piece text hprints _ ih =>
    intro b hb
    rcases List.mem_append.1 hb with hb | hb
    · exact f.printGap.blank.ne_zero b hb
    · rcases List.mem_append.1 hb with hb | hb
      · exact hprints.ne_zero b hb
      · exact ih b hb

namespace Scan
open Arena (ChangesWithin)

variable {S : Type} [ByteSource S] {V : SourceView S} {s : State S Arena} {before : List Byte}

/-- What scanning fields left: their values lie at their destinations, nothing else
changed, and no read failed. -/
structure StoresFields (fields : List RecordField) (s t : State S Arena) : Prop where
  holds : ∀ f ∈ fields, t.frame.memory.Holds f.destination.toNat f.stored
  elsewhere : ChangesWithin (fun x => ∃ f ∈ fields, f.covers x) s.frame.memory t.frame.memory
  failure : t.reader.failure = none

/-- A field's value stays while the fields behind it are stored. -/
theorem StoresFields.cons {f : RecordField} {rest : List RecordField} {ahead : List Byte}
    {slots : List Slot} {t u : State S Arena}
    (hfirst : StoresField V f.destination.toNat f.stored ahead slots s t)
    (hrest : StoresFields rest t u) (hapart : ∀ g ∈ rest, f.Apart g) :
    StoresFields (f :: rest) s u := by
  refine ⟨fun g hg => ?_, ?_, hrest.failure⟩
  · rcases List.mem_cons.1 hg with rfl | hg
    · refine hfirst.holds.of_changesWithin hrest.elsewhere fun x hlow hhigh => ?_
      rintro ⟨g', hg', hcovers⟩
      exact (hapart g' hg').not_covers ⟨hlow, hhigh⟩ hcovers
    · exact hrest.holds g hg
  · refine (hfirst.elsewhere.mono fun x hx => ⟨f, List.mem_cons_self, hx⟩).trans
      (hrest.elsewhere.mono ?_)
    rintro x ⟨g, hg, hx⟩
    exact ⟨g, List.mem_cons_of_mem f hg, hx⟩

theorem runFrom_of_assigned {segment : ScanSegment} {t : State S Arena} (assigned : Nat)
    (rest : List ScanSegment) (h : matchSegment segment s = .ok .assigned t) :
    runFrom assigned (segment :: rest) s = runFrom (assigned + 1) rest t := by
  rw [runFrom, bind_of_ok h]

theorem runFrom_of_skipped {segment : ScanSegment} {t : State S Arena} (assigned : Nat)
    (rest : List ScanSegment) (h : matchSegment segment s = .ok .skipped t) :
    runFrom assigned (segment :: rest) s = runFrom assigned rest t := by
  rw [runFrom, bind_of_ok h]

/-- Scanning what a record's tail printed stores its fields. -/
theorem runFrom_printed {rest : List RecordField} {text : List Byte} (h : Printed rest text)
    (assigned : Nat) (hbefore : IsBlank before) (hstands : Stands V s (before ++ text))
    (hoffers : s.frame.arguments.Offers (rest.map RecordField.pointer))
    (hin : ∀ f ∈ rest, s.frame.memory.InBounds f.destination.toNat f.stored.length)
    (hapart : rest.Pairwise RecordField.Apart) :
    ∃ t, runFrom assigned (rest.flatMap fun f => [.space, .directive f.scanSpec]) s =
        .ok (assigned + rest.length, .complete) t ∧ StoresFields rest s t := by
  induction h generalizing assigned s before with
  | nil =>
    obtain ⟨behind, hat⟩ := hstands
    refine ⟨s, rfl, fun f hf => ?_, .refl _ _, hat.failure⟩
    cases hf
  | @cons f rest piece text hprints hrest ih =>
    obtain ⟨word, ⟨blank, blank', rfl, hblank, hblank'⟩, hword⟩ := hprints
    obtain ⟨hfirst, hothers⟩ := List.pairwise_cons.1 hapart
    have hsolid := hword.solid
    -- White space ends at the word.
    have htext : before ++ (f.printGap.bytes ++ (blank ++ (word ++ blank') ++ text)) =
        (before ++ (f.printGap.bytes ++ blank)) ++ (word ++ (blank' ++ text)) := by simp
    rw [htext] at hstands
    have hspaces : IsBlank (before ++ (f.printGap.bytes ++ blank)) :=
      hbefore.append (f.printGap.blank.append hblank)
    obtain ⟨_, hatWord⟩ := stands_afterSpace hstands hspaces
      (stopsAt_word hsolid.1 (fun b hb => (hsolid.2 b hb).1) (blank' ++ text))
    have hspace : matchSegment ScanSegment.space s =
        .ok Progress.skipped (afterReading Reader.skipSpace s) := rfl
    have hsame := sameStores_afterReading Reader.skipSpace s
    -- The directive takes the word.
    have hslots := hoffers
    rw [← hsame.1] at hslots
    have hroom := hin f List.mem_cons_self
    rw [← hsame.2] at hroom
    have hnone : IsBlank [] := fun b hb => nomatch hb
    obtain ⟨t, hconvert, hfield⟩ := convert_field hword hnone (hrest.stopsAt hblank') hatWord
      hslots hroom
    have hfield' := hfield.of_sameStores hsame
    obtain ⟨u, hrun, hstored⟩ := ih (assigned + 1) hblank' hfield.stands hfield.offers
      (fun g hg => (hin g (List.mem_cons_of_mem f hg)).of_changesWithin hfield'.elsewhere) hothers
    refine ⟨u, ?_, .cons hfield' hstored hfirst⟩
    show runFrom assigned (.space :: .directive f.scanSpec ::
      rest.flatMap fun f => [.space, .directive f.scanSpec]) s = _
    rw [runFrom_of_skipped _ _ hspace, runFrom_of_assigned _ _ hconvert, hrun, List.length_cons,
      Nat.add_assoc, Nat.add_comm 1]

/-- Scanning what a record printed stores its fields. -/
theorem run_printed {first : RecordField} {rest : List RecordField} {piece text : List Byte}
    (hprints : first.Prints piece) (hprinted : Printed rest text)
    (hstands : Stands V s (piece ++ text))
    (hoffers : s.frame.arguments.Offers ((first :: rest).map RecordField.pointer))
    (hin : ∀ f ∈ first :: rest, s.frame.memory.InBounds f.destination.toNat f.stored.length)
    (hapart : (first :: rest).Pairwise RecordField.Apart) :
    ∃ t, run (scanText first rest) s = .ok ((first :: rest).length, .complete) t ∧
      StoresFields (first :: rest) s t := by
  obtain ⟨word, ⟨blank, blank', rfl, hblank, hblank'⟩, hword⟩ := hprints
  obtain ⟨hfirst, hothers⟩ := List.pairwise_cons.1 hapart
  have htext : blank ++ (word ++ blank') ++ text = blank ++ (word ++ (blank' ++ text)) := by simp
  rw [htext] at hstands
  obtain ⟨t, hconvert, hfield⟩ := convert_field hword hblank (hprinted.stopsAt hblank') hstands
    hoffers (hin first List.mem_cons_self)
  obtain ⟨u, hrun, hstored⟩ := runFrom_printed hprinted 1 hblank' hfield.stands hfield.offers
    (fun f hf => (hin f (List.mem_cons_of_mem first hf)).of_changesWithin hfield.elsewhere) hothers
  refine ⟨u, ?_, .cons hfield hstored hfirst⟩
  unfold run
  rw [parse_scanText]
  show runFrom 0 (.directive first.scanSpec :: _) s = _
  rw [runFrom_of_assigned _ _ hconvert, hrun, List.length_cons, Nat.add_comm]

/-- A text without a zero byte is a C string as a whole. -/
theorem upToNul_of_ne_zero {text : List Byte} (h : ∀ b ∈ text, b ≠ 0) : upToNul text = text := by
  have hall : ∀ b ∈ text, b != 0 := fun b hb => bne_iff_ne.2 (h b hb)
  have htake := takeWhile_of_stopsAt hall (.nil _)
  rwa [List.append_nil] at htake

/-- **Printing and scanning a record gives it back.** Take any fields: integers under
`d`, `u`, `o`, `x` or `X` with any length modifier and a precision other than zero,
addresses that are not null, strings without white space that no precision cuts; with
any flags and widths, and with white space between the directives. If printing them
succeeds, scanning the output with the same conversions and length modifiers is
complete, assigns every field, and leaves at each destination the bytes of the value,
as long as the destinations lie in the arena and apart from each other. -/
theorem scan_of_printed_record (first : RecordField) (rest : List RecordField)
    (printLevel scanLevel : CheckLevel) (printMemory scanMemory : Arena)
    (printTelemetry scanTelemetry : Telemetry) (output : List Byte)
    (hfields : ∀ f ∈ first :: rest, f.Passed ∧ f.PrintsWhole printMemory)
    (hprint : (Print.format (printText first rest)
      ⟨.start printLevel ((first :: rest).flatMap RecordField.slots), printMemory,
        printTelemetry⟩).1 = .ok output)
    (hin : ∀ f ∈ first :: rest, scanMemory.InBounds f.destination.toNat f.stored.length)
    (hapart : (first :: rest).Pairwise RecordField.Apart) :
    ∃ outcome left, Scan.scanString output (scanText first rest)
        ⟨.start scanLevel ((first :: rest).map RecordField.pointer), scanMemory, scanTelemetry⟩ =
          (.ok outcome, left) ∧
      outcome.status = .complete ∧ outcome.assigned = (first :: rest).length ∧
      outcome.failure = none ∧
      ∀ f ∈ first :: rest,
        left.memory.readBytes f.destination.toNat f.stored.length = .ok f.stored := by
  obtain ⟨piece, text, rfl, hprints, hprinted⟩ := printed_of_format hfields hprint
  have hwhole : upToNul (piece ++ text) = piece ++ text :=
    upToNul_of_ne_zero (List.forall_mem_append.2 ⟨hprints.ne_zero, hprinted.ne_zero⟩)
  have hstart : Stands TextSource.view
      ⟨Reader.start (TextSource.mk (piece ++ text)),
        Frame.note ⟨.start scanLevel ((first :: rest).map RecordField.pointer), scanMemory,
          scanTelemetry⟩ (·.count .scanCalls)⟩ (piece ++ text) :=
    ⟨[], Reader.At.start (TextSource.shows_mk _)⟩
  obtain ⟨t, hrun, hall⟩ := run_printed hprints hprinted hstart
    (ArgumentList.offers_start scanLevel _) hin hapart
  refine ⟨⟨(first :: rest).length, t.reader.consumed, .complete, t.reader.failure⟩,
    t.frame.note (·.countMany .fieldsAssigned (first :: rest).length), ?_, rfl, rfl,
    hall.failure, hall.holds⟩
  unfold scanString scan
  rw [hwhole, hrun]

/-! An example record: a number on the left of its width, a mask behind a radix mark,
and a word. -/
section Example

def exampleGap : Gap := ⟨ascii " ", by decide, isBlank_replicate 1⟩

def exampleNumber : RecordField where
  directive :=
    ⟨ascii "-+", .digits 54 [] (by decide) nofun, .absent, .short, .d,
      List.all_eq_true.1 rfl, rfl, rfl⟩
  widthArgument := .int 0
  precisionArgument := .int 0
  value := .int (-42)
  text := []
  destination := 0x10000
  printGap := exampleGap
  scanGap := exampleGap

def exampleMask : RecordField where
  directive := ⟨ascii "#", .absent, .star, .longLong, .x, List.all_eq_true.1 rfl, rfl, rfl⟩
  widthArgument := .int 0
  precisionArgument := .int 4
  value := .unsignedLong 255
  text := []
  destination := 0x10008
  printGap := exampleGap
  scanGap := exampleGap

def exampleWord : RecordField where
  directive := ⟨[], .star, .absent, .plain, .s, nofun, rfl, rfl⟩
  widthArgument := .int 4
  precisionArgument := .int 0
  value := .pointer 0x10000
  text := ascii "ok"
  destination := 0x10010
  printGap := exampleGap
  scanGap := exampleGap

/-- The three fields above, in the order they are printed. -/
def exampleRecord : List RecordField :=
  [exampleNumber, exampleMask, exampleWord]

def exampleMemory : Arena :=
  (Arena.empty.allocateString (ascii "ok")).2

/-- The memory the record is scanned back into. -/
def exampleTarget : Arena :=
  (Arena.empty.allocate 32).2

theorem scan_of_printed_example :
    (Print.format (printText exampleNumber [exampleMask, exampleWord])
        ⟨.start .checked (exampleRecord.flatMap RecordField.slots), exampleMemory, .initial⟩).1 =
          .ok (ascii "-42    0x00ff   ok") ∧
      (∀ f ∈ exampleRecord, f.Passed ∧ f.PrintsWhole exampleMemory) ∧
      (∀ f ∈ exampleRecord, exampleTarget.InBounds f.destination.toNat f.stored.length) ∧
      exampleRecord.Pairwise RecordField.Apart ∧
      ∃ outcome left, Scan.scanString (ascii "-42    0x00ff   ok")
          (scanText exampleNumber [exampleMask, exampleWord])
          ⟨.start .checked (exampleRecord.map RecordField.pointer), exampleTarget, .initial⟩ =
            (.ok outcome, left) ∧
        outcome.status = .complete ∧ outcome.assigned = 3 ∧ outcome.failure = none ∧
        ∀ f ∈ exampleRecord,
          left.memory.readBytes f.destination.toNat f.stored.length = .ok f.stored := by
  have hprint : (Print.format (printText exampleNumber [exampleMask, exampleWord])
      ⟨.start .checked (exampleRecord.flatMap RecordField.slots), exampleMemory, .initial⟩).1 =
        .ok (ascii "-42    0x00ff   ok") := by
    show (Print.format _ ⟨.start .checked [.int (-42), .int 4, .unsignedLong 255, .int 4,
      .pointer 0x10000], exampleMemory, .initial⟩).1 = _
    unfold Print.format Print.render
    rw [parse_printText]
    rfl
  have hword : ∀ b ∈ exampleWord.text, b.isSpace = false := by
    show ∀ b ∈ [111, 107], Byte.isSpace b = false
    exact List.forall_mem_cons.2 ⟨rfl, List.forall_mem_singleton.2 rfl⟩
  have hfields : ∀ f ∈ exampleRecord, f.Passed ∧ f.PrintsWhole exampleMemory := by
    intro f hf
    simp only [exampleRecord, List.mem_cons, List.not_mem_nil, or_false] at hf
    rcases hf with rfl | rfl | rfl
    · refine ⟨⟨by decide, by decide, by decide⟩, ?_⟩
      show exampleNumber.layout.precision ≠ .given 0
      decide
    · refine ⟨⟨by decide, by decide, by decide⟩, ?_⟩
      show exampleMask.layout.precision ≠ .given 0
      decide
    · exact ⟨⟨by decide, by decide, by decide⟩, rfl, by decide, hword, by decide⟩
  have hin : ∀ f ∈ exampleRecord,
      exampleTarget.InBounds f.destination.toNat f.stored.length := by
    unfold Arena.InBounds
    decide
  have hapart : exampleRecord.Pairwise RecordField.Apart := by
    unfold RecordField.Apart
    decide
  exact ⟨hprint, hfields, hin, hapart, scan_of_printed_record _ _ _ _ _ _ _ _ _ hfields hprint hin
    hapart⟩

end Example

end Scan
end CheckedFormat
