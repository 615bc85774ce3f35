import CheckedFormat.Proofs.ByteClasses
/-! Formats by their grammar, for printing and scanning alike.

A grammar says which texts are directives, what is wrong with a text behind a percent
sign that starts none, and which segments the parts of a format are (`FormatGrammar`).
Where reading takes one part at a time as the grammar has it (`FormatGrammar.Reads`), it
accepts just the formats of the grammar, gives the segments that tile the text, and
refuses a format at the first percent sign that starts no directive, for the cause that
the grammar names (`Reads.accepts_iff`, `Reads.ok_iff`, `Reads.error_iff`). -/
namespace CheckedFormat

/-- The letters that a length modifier may stand before, where floating-point numbers
have the letters `floats`. -/
def LengthModifier.letters (floats : List Byte) : LengthModifier → List Byte
  | plain => ascii "diuoxXcspn" ++ floats
  | long => ascii "diuoxXn" ++ floats
  | longDouble => floats
  | _ => ascii "diuoxXn"

theorem Conversion.ofLetter?_eq_some_iff {letter : Byte} {conversion : Conversion} :
    ofLetter? letter = some conversion ↔ conversion.letter = letter := by
  constructor
  · intro h
    have hfound := List.find?_some h
    exact eq_of_beq hfound
  · rintro rfl
    exact ofLetter?_letter conversion

/-- Without its last byte a modifier is one still. -/
theorem LengthModifier.exists_dropLast (length : LengthModifier) :
    ∃ shorter : LengthModifier, ascii shorter.spelling = (ascii length.spelling).dropLast := by
  cases length with
  | char => exact ⟨.short, rfl⟩
  | longLong => exact ⟨.long, rfl⟩
  | _ => exact ⟨.plain, rfl⟩

/-! ### The longest start of a text -/

/-- Every start of a text that has the property has it. -/
def PrefixClosed (p : List Byte → Prop) : Prop := ∀ front rest, p (front ++ rest) → p front

theorem prefixClosed_of_dropLast {p : List Byte → Prop} (h : ∀ text, p text → p text.dropLast) :
    PrefixClosed p := by
  intro front rest
  induction rest generalizing front with
  | nil => exact fun hp => by rwa [List.append_nil] at hp
  | cons b rest ih =>
    intro hp
    rw [← List.singleton_append, ← List.append_assoc] at hp
    have hdrop := h _ (ih (front ++ [b]) hp)
    rwa [List.dropLast_concat] at hdrop

/-- `front` has the property, and no longer start of `front ++ rest` has it. -/
structure LongestStart (p : List Byte → Prop) (front rest : List Byte) : Prop where
  holds : p front
  ends : ∀ b, rest.head? = some b → ¬ p (front ++ [b])

/-- A text has one longest start. -/
theorem LongestStart.unique {p : List Byte → Prop} (hp : PrefixClosed p)
    {front front' rest rest' : List Byte} (h : LongestStart p front rest)
    (h' : LongestStart p front' rest') (htext : front ++ rest = front' ++ rest') :
    front = front' ∧ rest = rest' := by
  have hnever {front front' rest rest' : List Byte} (h : LongestStart p front rest)
      (h' : LongestStart p front' rest') {more : List Byte} (hfront : front' = front ++ more)
      (hrest : rest = more ++ rest') : more = [] := by
    cases more with
    | nil => rfl
    | cons b more =>
      refine absurd (hp (front ++ [b]) more ?_) (h.ends b (by rw [hrest]; rfl))
      rw [List.append_assoc, List.singleton_append, ← hfront]
      exact h'.holds
  rcases List.append_eq_append_iff.1 htext with ⟨more, hfront, hrest⟩ | ⟨more, hfront, hrest⟩
  · obtain rfl := hnever h h' hfront hrest
    simp_all
  · obtain rfl := hnever h' h hfront hrest
    simp_all

/-- Every text starts with an opening that the rest does not go on with, and `split`
takes that opening off the front. -/
structure SplitsOff {Opening Parts : Type} (text : Opening → List Byte) (parts : Opening → Parts)
    (StopsBefore : Opening → List Byte → Prop) (split : List Byte → Parts × List Byte) : Prop where
  exists_text : ∀ whole, ∃ o rest, whole = text o ++ rest ∧ StopsBefore o rest
  split_text : ∀ {o rest}, StopsBefore o rest → split (text o ++ rest) = (parts o, rest)
  of_head : ∀ {o b rest}, StopsBefore o (b :: rest) → ∀ later, StopsBefore o (b :: later)
  stopsBefore_nil : ∀ o, StopsBefore o []

namespace SplitsOff
variable {Opening Parts : Type} {text : Opening → List Byte} {parts : Opening → Parts}
  {StopsBefore : Opening → List Byte → Prop} {split : List Byte → Parts × List Byte}
  (h : SplitsOff text parts StopsBefore split)
include h

theorem split_bare (o : Opening) : split (text o) = (parts o, []) := by
  have hsplit := h.split_text (h.stopsBefore_nil o)
  rwa [List.append_nil] at hsplit

/-- The text of an opening says its parts. -/
theorem parts_eq {o o' : Opening} (htext : text o = text o') : parts o = parts o' := by
  have hbare := h.split_bare o
  rw [htext, h.split_bare] at hbare
  exact (congrArg Prod.fst hbare).symm

/-- An opening that the rest does not go on with is the longest. -/
theorem longestStart {o : Opening} {rest : List Byte} (hstops : StopsBefore o rest) :
    LongestStart (fun front => ∃ o, text o = front) (text o) rest where
  holds := ⟨o, rfl⟩
  ends := by
    rintro b hb ⟨longer, htext⟩
    obtain ⟨later, rfl⟩ := List.head?_eq_some_iff.1 hb
    -- Read up to this byte, the text would be one opening and also an opening and a byte.
    have hbare := h.split_bare longer
    rw [htext, h.split_text (h.of_head hstops [])] at hbare
    cases congrArg Prod.snd hbare

/-- Where no longer start of the text is an opening, this one is taken. -/
theorem split_of_longest (hclosed : PrefixClosed fun front => ∃ o, text o = front) {o : Opening}
    {rest : List Byte} (hlongest : LongestStart (fun front => ∃ o, text o = front) (text o) rest) :
    split (text o ++ rest) = (parts o, rest) := by
  obtain ⟨o', rest', htext, hstops⟩ := h.exists_text (text o ++ rest)
  obtain ⟨hopening, rfl⟩ := hlongest.unique hclosed (h.longestStart hstops) htext
  rw [htext, h.split_text hstops, h.parts_eq hopening]

end SplitsOff

/-! ### Grammars -/

/-- What a family of formats is made of. -/
structure FormatGrammar (Segment : Type) where
  /-- The text of a directive, percent sign and all. -/
  IsDirective : List Byte → Prop
  /-- What is wrong with a text behind a percent sign that starts no directive. -/
  Breaks : List Byte → Malformed → Prop
  /-- The segment that a directive is, by its text behind the percent sign. -/
  Directive : Segment → List Byte → Prop
  /-- The segment that a run of other bytes is, in front of the rest of a format. -/
  Run : Segment → List Byte → List Byte → Prop

namespace FormatGrammar

section Texts
variable {Segment : Type} (G : FormatGrammar Segment)

/-- A format: directives, and other bytes between them. -/
inductive IsFormat : List Byte → Prop where
  | nil : IsFormat []
  | ordinary {b : Byte} {rest : List Byte} (hb : b ≠ opener) (h : IsFormat rest) :
      IsFormat (b :: rest)
  | directive {text rest : List Byte} (hd : G.IsDirective text) (h : IsFormat rest) :
      IsFormat (text ++ rest)

/-- A format up to a percent sign that starts no directive. -/
inductive Refused : List Byte → FormatError → Prop where
  | at {front after : List Byte} {cause : Malformed} (hfront : G.IsFormat front)
      (none : ∀ text rest, G.IsDirective text → text ++ rest ≠ opener :: after)
      (breaks : G.Breaks after cause) :
      Refused (front ++ opener :: after) ⟨front.length, cause⟩

/-- The source texts of the segments, one after the other, are the text. -/
inductive Tiles : List Segment → List Byte → Prop where
  | nil : Tiles [] []
  | run {segment : Segment} {run rest : List Byte} {segments : List Segment}
      (source : G.Run segment run rest) (h : Tiles segments rest) :
      Tiles (segment :: segments) (run ++ rest)
  | directive {segment : Segment} {body rest : List Byte} {segments : List Segment}
      (source : G.Directive segment body) (h : Tiles segments rest) :
      Tiles (segment :: segments) (opener :: (body ++ rest))

end Texts

/-- `parse` reads the directive behind a percent sign, and `parseRest` what is left of a
format of some size, both as the grammar has it. -/
structure Reads {Segment : Type} (G : FormatGrammar Segment)
    (parse : List Byte → Except Malformed (Segment × List Byte))
    (parseRest : Nat → List Byte → Except FormatError (List Segment)) : Prop where
  parse_cases : ∀ text,
    (∃ segment body rest, G.Directive segment body ∧ text = body ++ rest ∧
      parse text = .ok (segment, rest)) ∨
    ∃ cause, G.Breaks text cause ∧ parse text = .error cause
  parse_of_directive : ∀ {segment body}, G.Directive segment body → ∀ rest,
    parse (body ++ rest) = .ok (segment, rest)
  parse_of_breaks : ∀ {text cause}, G.Breaks text cause → parse text = .error cause
  isDirective_iff : ∀ {text}, G.IsDirective text ↔
    ∃ segment body, G.Directive segment body ∧ text = opener :: body
  /-- A run is made of bytes other than percent signs. -/
  run_ordinary : ∀ {segment run rest}, G.Run segment run rest → run ≠ [] ∧ ∀ b ∈ run, b ≠ opener
  /-- Whether a run ends does not hang on what stands behind the next percent sign. -/
  run_before : ∀ {segment run rest after},
    G.Run segment run (rest ++ opener :: after) ↔ G.Run segment run rest
  exists_run : ∀ {b after}, b ≠ opener →
    ∃ segment run rest, G.Run segment run rest ∧ b :: after = run ++ rest
  parseRest_nil : ∀ size, parseRest size [] = .ok []
  parseRest_directive : ∀ size {text rest segment}, parse text = .ok (segment, rest) →
    parseRest size (opener :: text) = (parseRest size rest).map (segment :: ·)
  parseRest_malformed : ∀ size {text cause}, parse text = .error cause →
    parseRest size (opener :: text) = .error ⟨size - (text.length + 1), cause⟩
  parseRest_run : ∀ size {segment run rest}, G.Run segment run rest →
    parseRest size (run ++ rest) = (parseRest size rest).map (segment :: ·)

namespace Reads
variable {Segment : Type} {G : FormatGrammar Segment}
  {parse : List Byte → Except Malformed (Segment × List Byte)}
  {parseRest : Nat → List Byte → Except FormatError (List Segment)} (R : G.Reads parse parseRest)
include R

/-- A directive is read just where the text starts with one. -/
theorem directive_iff {text rest : List Byte} {segment : Segment} :
    parse text = .ok (segment, rest) ↔ ∃ body, G.Directive segment body ∧ text = body ++ rest := by
  constructor
  · intro h
    rcases R.parse_cases text with ⟨_, body, _, hbody, htext, hparse⟩ | ⟨_, _, hparse⟩
    · rw [h] at hparse
      cases hparse
      exact ⟨body, hbody, htext⟩
    · rw [h] at hparse
      cases hparse
  · rintro ⟨body, hbody, rfl⟩
    exact R.parse_of_directive hbody rest

/-- What a format starts with. -/
theorem cases_text (text : List Byte) :
    text = [] ∨
    (∃ segment run rest, G.Run segment run rest ∧ run ≠ [] ∧ text = run ++ rest) ∨
    (∃ segment body rest, G.Directive segment body ∧ text = opener :: (body ++ rest)) ∨
    ∃ after cause, G.Breaks after cause ∧ text = opener :: after := by
  cases text with
  | nil => exact .inl rfl
  | cons b after =>
    by_cases hb : b = opener
    · subst hb
      refine .inr (.inr ?_)
      rcases R.parse_cases after with ⟨segment, body, rest, hbody, rfl, _⟩ | ⟨cause, hbreaks, _⟩
      · exact .inl ⟨segment, body, rest, hbody, rfl⟩
      · exact .inr ⟨after, cause, hbreaks, rfl⟩
    · obtain ⟨segment, run, rest, hrun, htext⟩ : ∃ segment run rest,
          G.Run segment run rest ∧ b :: after = run ++ rest := R.exists_run hb
      exact .inr (.inl ⟨segment, run, rest, hrun, (R.run_ordinary hrun).1, htext⟩)

/-- Induction over a text by what it starts with. -/
theorem text_induction {motive : List Byte → Prop} (nil : motive [])
    (run : ∀ segment run rest, G.Run segment run rest → motive rest → motive (run ++ rest))
    (directive : ∀ segment body rest, G.Directive segment body → motive rest →
      motive (opener :: (body ++ rest)))
    (breaks : ∀ after cause, G.Breaks after cause → motive (opener :: after))
    (text : List Byte) : motive text := by
  induction hsize : text.length using Nat.strongRecOn generalizing text with
  | ind size ih =>
    rcases R.cases_text text with rfl | ⟨segment, source, rest, hrun, hsome, rfl⟩ |
      ⟨segment, body, rest, hbody, rfl⟩ | ⟨after, cause, hbreaks, rfl⟩
    · exact nil
    · have hlonger := List.length_pos_iff.2 hsome
      rw [List.length_append] at hsize
      exact run segment source rest hrun (ih rest.length (by omega) rest rfl)
    · rw [List.length_cons, List.length_append] at hsize
      exact directive segment body rest hbody (ih rest.length (by omega) rest rfl)
    · exact breaks after cause hbreaks

/-! ### What is read -/

theorem parseRest_body (size : Nat) {segment : Segment} {body : List Byte} (rest : List Byte)
    (h : G.Directive segment body) :
    parseRest size (opener :: (body ++ rest)) = (parseRest size rest).map (segment :: ·) :=
  R.parseRest_directive size (R.parse_of_directive h rest)

/-- Reading gives the segments that tile the text. -/
theorem ok_iff {size : Nat} {text : List Byte} {segments : List Segment} :
    parseRest size text = .ok segments ↔ G.Tiles segments text := by
  constructor
  · -- A part that is read stands in front of the others.
    have hcons {segment : Segment} {rest : List Byte} {all : List Segment}
        (h : (parseRest size rest).map (segment :: ·) = .ok all) :
        ∃ later, parseRest size rest = .ok later ∧ all = segment :: later := by
      cases hrest : parseRest size rest with
      | error e => rw [hrest] at h; cases h
      | ok later => rw [hrest] at h; cases h; exact ⟨later, rfl, rfl⟩
    induction text using R.text_induction generalizing segments with
    | nil =>
      rw [R.parseRest_nil]
      rintro ⟨⟩
      exact .nil
    | run segment run rest hrun ih =>
      rw [R.parseRest_run size hrun]
      intro h
      obtain ⟨later, hlater, rfl⟩ := hcons h
      exact .run hrun (ih hlater)
    | directive segment body rest hbody ih =>
      rw [R.parseRest_body size rest hbody]
      intro h
      obtain ⟨later, hlater, rfl⟩ := hcons h
      exact .directive hbody (ih hlater)
    | breaks after cause hbreaks =>
      rw [R.parseRest_malformed size (R.parse_of_breaks hbreaks)]
      nofun
  · intro h
    induction h with
    | nil => exact R.parseRest_nil size
    | run hrun _ ih => rw [R.parseRest_run size hrun, ih]; rfl
    | directive hbody _ ih => rw [R.parseRest_body size _ hbody, ih]; rfl

/-! ### What is accepted -/

theorem isFormat_run {segment : Segment} {run rest : List Byte} (h : G.Run segment run rest) :
    G.IsFormat (run ++ rest) ↔ G.IsFormat rest := by
  have hordinary := (R.run_ordinary h).2
  clear h
  induction run with
  | nil => rfl
  | cons b run ih =>
    obtain ⟨hb, hrun⟩ := List.forall_mem_cons.1 hordinary
    rw [List.cons_append]
    refine .trans ?_ (ih hrun)
    constructor
    · intro hformat
      generalize htext : b :: (run ++ rest) = text at hformat
      cases hformat with
      | nil => cases htext
      | ordinary _ h => cases htext; exact h
      | directive hd h =>
        obtain ⟨_, _, _, rfl⟩ := R.isDirective_iff.1 hd
        exact absurd (List.cons.inj htext).1 hb
    · exact .ordinary hb

theorem isFormat_body {segment : Segment} {body rest : List Byte} (h : G.Directive segment body) :
    G.IsFormat (opener :: (body ++ rest)) ↔ G.IsFormat rest := by
  constructor
  · intro hformat
    generalize htext : opener :: (body ++ rest) = text at hformat
    cases hformat with
    | nil => cases htext
    | ordinary hb _ => cases htext; exact absurd rfl hb
    | @directive _ rest' hd hrest =>
      obtain ⟨segment', body', hbody', rfl⟩ := R.isDirective_iff.1 hd
      -- The directive at the front is the one that is read.
      rw [List.cons_append] at htext
      have hread := R.parse_of_directive h rest
      rw [(List.cons.inj htext).2, R.parse_of_directive hbody'] at hread
      cases hread
      exact hrest
  · exact .directive (R.isDirective_iff.2 ⟨segment, body, h, rfl⟩)

/-- Where the text behind a percent sign breaks the grammar, the percent sign starts no
directive. -/
theorem not_isDirective {after : List Byte} {cause : Malformed} (h : G.Breaks after cause)
    (text rest : List Byte) (hd : G.IsDirective text) : text ++ rest ≠ opener :: after := by
  obtain ⟨segment, body, hbody, rfl⟩ := R.isDirective_iff.1 hd
  intro htext
  rw [List.cons_append] at htext
  have hread := R.parse_of_directive hbody rest
  rw [(List.cons.inj htext).2, R.parse_of_breaks h] at hread
  cases hread

theorem not_isFormat {after : List Byte} {cause : Malformed} (h : G.Breaks after cause) :
    ¬ G.IsFormat (opener :: after) := by
  intro hformat
  generalize htext : opener :: after = text at hformat
  cases hformat with
  | nil => cases htext
  | ordinary hb _ => cases htext; exact hb rfl
  | directive hd _ => exact R.not_isDirective h _ _ hd htext.symm

/-- The formats of the grammar are the texts that segments tile. -/
theorem isFormat_iff {text : List Byte} : G.IsFormat text ↔ ∃ segments, G.Tiles segments text := by
  constructor
  · induction text using R.text_induction with
    | nil => exact fun _ => ⟨[], .nil⟩
    | run segment run rest hrun ih =>
      rw [R.isFormat_run hrun]
      intro h
      obtain ⟨segments, htiles⟩ := ih h
      exact ⟨_, .run hrun htiles⟩
    | directive segment body rest hbody ih =>
      rw [R.isFormat_body hbody]
      intro h
      obtain ⟨segments, htiles⟩ := ih h
      exact ⟨_, .directive hbody htiles⟩
    | breaks after cause hbreaks => exact fun h => absurd h (R.not_isFormat hbreaks)
  · rintro ⟨segments, h⟩
    induction h with
    | nil => exact .nil
    | run hrun _ ih => exact (R.isFormat_run hrun).2 ih
    | directive hbody _ ih => exact (R.isFormat_body hbody).2 ih

/-- Reading accepts just the formats of the grammar. -/
theorem accepts_iff {size : Nat} {text : List Byte} :
    (∃ segments, parseRest size text = .ok segments) ↔ G.IsFormat text := by
  rw [R.isFormat_iff]
  exact exists_congr fun segments => R.ok_iff

/-! ### What is refused -/

/-- Tiles in front of a percent sign are read, whatever stands behind it. -/
theorem parseRest_tiles (size : Nat) {segments : List Segment} {front after : List Byte}
    (h : G.Tiles segments front) :
    parseRest size (front ++ opener :: after) =
      (parseRest size (opener :: after)).map (segments ++ ·) := by
  induction h with
  | nil =>
    rw [List.nil_append]
    cases parseRest size (opener :: after) <;> rfl
  | run hrun _ ih =>
    rw [List.append_assoc, R.parseRest_run size (R.run_before.2 hrun), ih]
    cases parseRest size (opener :: after) <;> rfl
  | directive hbody _ ih =>
    rw [List.cons_append, List.append_assoc, R.parseRest_body size _ hbody, ih]
    cases parseRest size (opener :: after) <;> rfl

/-- A text that is refused is one of tiles up to where it breaks the grammar. -/
theorem exists_of_error {size : Nat} {text : List Byte} {e : FormatError} :
    parseRest size text = .error e → ∃ front segments after, text = front ++ opener :: after ∧
      G.Tiles segments front ∧ G.Breaks after e.cause ∧ e.offset = size - (after.length + 1) := by
  have hlater {segment : Segment} {rest : List Byte}
      (h : (parseRest size rest).map (segment :: ·) = .error e) : parseRest size rest = .error e := by
    cases hrest : parseRest size rest with
    | error e' => rw [hrest] at h; cases h; rfl
    | ok later => rw [hrest] at h; cases h
  induction text using R.text_induction with
  | nil =>
    rw [R.parseRest_nil]
    nofun
  | run segment run rest hrun ih =>
    rw [R.parseRest_run size hrun]
    intro h
    obtain ⟨front, segments, after, rfl, htiles, hbreaks⟩ := ih (hlater h)
    exact ⟨run ++ front, _, after, by rw [List.append_assoc],
      .run (R.run_before.1 hrun) htiles, hbreaks⟩
  | directive segment body rest hbody ih =>
    rw [R.parseRest_body size rest hbody]
    intro h
    obtain ⟨front, segments, after, rfl, htiles, hbreaks⟩ := ih (hlater h)
    exact ⟨opener :: (body ++ front), _, after, by simp, .directive hbody htiles, hbreaks⟩
  | breaks after cause hbreaks =>
    rw [R.parseRest_malformed size (R.parse_of_breaks hbreaks)]
    rintro ⟨⟩
    exact ⟨[], [], after, rfl, .nil, hbreaks, rfl⟩

/-- Reading refuses a format at the first percent sign that starts no directive. -/
theorem error_iff {text : List Byte} {e : FormatError} :
    parseRest text.length text = .error e ↔ G.Refused text e := by
  constructor
  · intro h
    obtain ⟨front, segments, after, rfl, htiles, hbreaks, hoffset⟩ := R.exists_of_error h
    have hlength : e.offset = front.length := by
      rw [hoffset, List.length_append, List.length_cons, Nat.add_sub_cancel]
    obtain ⟨offset, cause⟩ := e
    obtain rfl : offset = front.length := hlength
    exact .at (R.isFormat_iff.2 ⟨segments, htiles⟩) (R.not_isDirective hbreaks) hbreaks
  · rintro ⟨hfront, _, hbreaks⟩
    obtain ⟨segments, htiles⟩ := R.isFormat_iff.1 hfront
    rw [R.parseRest_tiles _ htiles, R.parseRest_malformed _ (R.parse_of_breaks hbreaks),
      List.length_append, List.length_cons, Nat.add_sub_cancel]
    rfl

end Reads
end FormatGrammar
end CheckedFormat
