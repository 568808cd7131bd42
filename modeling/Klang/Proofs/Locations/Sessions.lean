import Klang.Proofs.Defenses
import Klang.Proofs.Lexing.Tiling
import Klang.Proofs.Locations.Positions
import Klang.Proofs.Locations.Runs

/-! Failures in a session. A source may call functions that earlier sources have left, so a failure
lies at a token of one of the sources run so far. The report against that source, which need not be
the one that is running, shows the code that failed. -/

namespace Klang

open Source Token

namespace Token

variable {file source : String} {text : List Char} {t : Token}

lemma Tiles.occupies {offset : Nat} {tokens : List Token} (h : Tiles file text offset tokens)
    (ht : t ∈ tokens) : ∃ start stop, Occupies file text t start stop := by
  induction h with
  | nil hgap => cases ht
  | cons hle hgap hfirst h ih =>
    rcases List.mem_cons.1 ht with rfl | ht
    · exact ⟨_, _, hfirst⟩
    · exact ih ht

lemma Occupies.prefix_textFrom {start stop : Nat} (h : Occupies file text t start stop) :
    t.span.text.toList <+: textFrom text t.span.start := by
  have hle : start ≤ text.length := (Nat.le_of_lt h.nonempty).trans h.bounded
  rw [h.span, textFrom_position hle, String.toList_ofList, List.extract_eq_take_drop]
  exact List.take_prefix _ _

lemma prefix_textFrom_of_fault {fault : LexFault} {lexeme : List Char} {offset : Nat}
    (h : front (source.toList.drop offset) = .fault fault lexeme) :
    (spanAt file source offset lexeme).text.toList <+:
      textFrom source.toList (spanAt file source offset lexeme).start := by
  have hle : offset ≤ source.toList.length := by
    apply Nat.le_of_not_lt
    intro hlt
    rw [List.drop_eq_nil_of_le hlt.le] at h
    cases h
  change (String.ofList lexeme).toList <+: textFrom source.toList (position source.toList offset)
  rw [textFrom_position hle, String.toList_ofList]
  exact prefix_of_front h

lemma IsPlace.prefix_textFrom {span : Span} (h : IsPlace file source span) :
    span.text.toList <+: textFrom source.toList span.start := by
  rw [IsPlace] at h
  cases htokens : tokenize file source with
  | ok tokens =>
    rw [htokens] at h
    obtain ⟨t, ht, rfl⟩ := h
    obtain ⟨found, gap, hpieces, rfl⟩ := tokenize_eq_ok htokens
    rcases List.mem_append.1 ht with ht | ht
    · have htiles : Tiles file source.toList 0 _ := tiles_placeAll (Nat.zero_le _) hpieces
      obtain ⟨start, stop, hoccupies⟩ := htiles.occupies ht
      exact hoccupies.prefix_textFrom
    · obtain rfl := List.mem_singleton.1 ht
      exact List.nil_prefix
  | error e =>
    rw [htokens] at h
    obtain ⟨-, offset, lexeme, hfront, -, rfl⟩ := h
    exact prefix_textFrom_of_fault hfront

end Token

/-- The stores of a session, with the names and the texts of the sources that were run in it. -/
inductive Store.After (installed : Policies) (extra : List (String × HostFunction)) :
    List (String × String) → Store → Prop
  | fresh {start : Store} : globalStore installed extra = .ok start →
      After installed extra [] start
  | next {past : List (String × String)} {s : Store} (debug : Bool) (policies : Policies)
      (file source : String) : After installed extra past s →
      After installed extra ((file, source) :: past) (runSource debug policies file source s).2

/-- A place in one of several sources that are not empty. -/
def InSources (sources : List (String × String)) (place : Option Span) : Prop :=
  ∃ origin ∈ sources, origin.2 ≠ "" ∧ InSource origin.1 origin.2 place

variable {installed policies : Policies} {extra : List (String × HostFunction)}
  {past : List (String × String)} {s t : Store} {debug : Bool} {file source : String}
  {place : Option Span}

lemma InSources.cons (h : InSources past place) (origin : String × String) :
    InSources (origin :: past) place := by
  obtain ⟨found, hmem, hplace⟩ := h
  exact ⟨found, List.mem_cons_of_mem _ hmem, hplace⟩

lemma InSource.inSources (h : InSource file source place) (hsource : source ≠ "") :
    InSources ((file, source) :: past) place :=
  ⟨(file, source), List.mem_cons_self, hsource, h⟩

lemma everywhere_inSources {program : Node} (hread : (readProgram file source).result = .ok program)
    (hsource : source ≠ "") :
    program.Everywhere fun n => n.IsWellFormed ∧ InSources ((file, source) :: past) n.span := by
  rcases readProgram_located file source with ⟨program', hread', hprogram⟩ | ⟨d, hread', -⟩
  · obtain rfl : program' = program := Except.ok.inj (hread'.symm.trans hread)
    exact hprogram.mono fun _ hn => ⟨hn.1, hn.2.inSources hsource⟩
  · cases hread'.symm.trans hread

lemma Store.Holds.cons (h : s.Holds (Lockstep.placed (InSources past)).value)
    (origin : String × String) : s.Holds (Lockstep.placed (InSources (origin :: past))).value := by
  refine h.mono fun v hv => ?_
  cases v with
  | function c =>
    exact ⟨hv.1, hv.2.mono fun n hn => ⟨hn.1, hn.2.cons origin⟩⟩
  | _ => trivial

lemma Store.After.holds (h : s.After installed extra past) :
    s.Holds (Lockstep.placed (InSources past)).value := by
  induction h with
  | fresh hstart =>
    obtain ⟨_, _, hs⟩ := Lockstep.stores_globalStore (d := .placed (InSources []))
      (fun _ h => h) trivial rfl trivial hstart
    exact hs.holds
  | @next past s debug policies file source _ ih =>
    have hearlier := ih.cons (file, source)
    -- A report against an empty source shows nothing, so places in one do not count.
    by_cases hsource : source = ""
    · subst hsource
      obtain ⟨t, hrun, ht⟩ := runSource_empty_saysMore debug policies file s
      rw [hrun]
      exact hearlier.saysMore ht
    · exact hearlier.runSource (fun hread => everywhere_inSources hread hsource) debug policies

lemma runSource_inSources (hs : s.After installed extra past) {d : Diagnostic}
    (hrun : runSource debug policies file source s = (.failed d, t))
    (hreturn : d ≠ Fault.strayReturn.diagnostic none) :
    ∃ origin ∈ (file, source) :: past, origin.2 ≠ "" ∧ InSource origin.1 origin.2 d.span ∧
      ((readProgram file source).result = .error d → origin = (file, source)) := by
  have hlog := (hs.holds.cons (file, source)).logAll debug (readProgram file source).trace
  have hsource : source ≠ "" := by
    rintro rfl
    obtain ⟨_, hempty⟩ := runSource_empty debug policies file s
    rw [hempty] at hrun
    cases hrun
  rcases readProgram_located file source with ⟨program, hread, -⟩ | ⟨e, hread, hplace⟩
  · rw [runSource_of_ok hread] at hrun
    obtain ⟨reason, place, hfault, rfl⟩ := Outcome.of_eq_failed hrun
    rcases settle_eq_fault hfault with hr | ⟨rfl, rfl⟩
    · have hends := Lockstep.ends_placed (everywhere_inSources hread hsource) hlog policies rootFrame
      rw [hr] at hends
      obtain ⟨origin, hmem, hne, hplace⟩ := (hends.fault trivial).2
      refine ⟨origin, hmem, hne, hplace, fun herror => ?_⟩
      rw [hread] at herror
      cases herror
    · exact absurd rfl hreturn
  · simp only [runSource, hread] at hrun
    cases hrun
    exact ⟨_, List.mem_cons_self, hsource, hplace, fun _ => rfl⟩

/-- Whenever a source fails in a session, but for a `return` outside of all functions, the failure lies
at a place of that source or of one that was run before. There the text of its span stands at its
start, and a report against it shows the line of the failure with a caret below. If the source could
not be read, the place is its own. -/
theorem session_located (hs : s.After installed extra past) {d : Diagnostic}
    (hrun : runSource debug policies file source s = (.failed d, t))
    (hreturn : d ≠ Fault.strayReturn.diagnostic none) :
    ∃ span, d.span = some span ∧ ∃ origin ∈ (file, source) :: past,
      IsPlace origin.1 origin.2 span ∧
        span.text.toList <+: textFrom origin.2.toList span.start ∧
          [numberedLine span.start.line.toNat (line origin.2 span.start.line),
            caretLine span.start.column] <:+: lines (d.report origin.2) ∧
          ((readProgram file source).result = .error d → origin = (file, source)) := by
  obtain ⟨origin, hmem, hne, ⟨span, hspan, hplace⟩, hown⟩ := runSource_inSources hs hrun hreturn
  obtain ⟨hfirst, hlast⟩ := hplace.line
  exact ⟨span, hspan, origin, hmem, hplace, hplace.prefix_textFrom,
    d.infix_lines_report hspan hfirst hlast hne, hown⟩

def Outcome.place? : Outcome → Option Span
  | .failed d => d.span
  | _ => none

lemma Outcome.exists_of_place? {r : Outcome × Store} {span : Span} (h : r.1.place? = some span) :
    ∃ d t, r = (.failed d, t) ∧ d.span = some span := by
  obtain ⟨outcome, t⟩ := r
  cases outcome with
  | failed d => exact ⟨d, t, rfl, h⟩
  | _ => cases h

/-- The second source of this session fails in the function that the first one has left. The text of
the span is not found at its start in the second source, but in the first one. -/
theorem session_located_definition :
    let file := "<input>"
    let earlier := "let f = forge() -> -true"
    let start := (runSource false {} file earlier (standardStore {})).2
    ∃ d span t, start.After {} [] [(file, earlier)] ∧
      runSource false {} file "f()" start = (.failed d, t) ∧ d.span = some span ∧
        ¬ span.text.toList <+: textFrom "f()".toList span.start ∧
          span.text.toList <+: textFrom earlier.toList span.start ∧
            [numberedLine span.start.line.toNat (line earlier span.start.line),
              caretLine span.start.column] <:+: lines (d.report earlier) := by
  intro file earlier start
  have hstart : start.After {} [] [(file, earlier)] := .next false {} file earlier (.fresh rfl)
  have hplace : (runSource false {} file "f()" start).1.place? =
      some ⟨file, ⟨1, 20⟩, ⟨1, 21⟩, "-"⟩ := by decide +kernel
  obtain ⟨d, t, hrun, hspan⟩ := Outcome.exists_of_place? hplace
  have hmissing : ¬ "-".toList <+: textFrom "f()".toList ⟨1, 20⟩ := by decide
  have hreturn : d ≠ Fault.strayReturn.diagnostic none := by
    rintro rfl
    cases hspan
  obtain ⟨span, hspan', origin, hmem, -, htext, hreport, -⟩ := session_located hstart hrun hreturn
  obtain rfl := Option.some.inj (hspan.symm.trans hspan')
  rcases List.mem_cons.1 hmem with rfl | hmem
  · exact absurd htext hmissing
  · obtain rfl := List.mem_singleton.1 hmem
    exact ⟨d, _, t, hstart, hrun, hspan, hmissing, htext, hreport⟩

end Klang
