import Klang.Console
import Klang.Proofs.Defenses
import Klang.Proofs.Knots
import Mathlib.Data.List.Infix

/-! How the console ends, on a host whose stack takes what it may. An interactive session goes on until
its input ends or a chunk says `exit`, and a script ends with status 0 or 1, whatever they do, unless
something has to be shown that lies within itself or is too deep for the stack, and nothing is there to
tell. -/

namespace Klang.Console

open Store Token

namespace Stack

/-- A value that cannot be shown: it is, or holds, something that lies within itself, or is too deep. -/
def Overflows (stack : Stack) (s : Store) (v : Value) : Prop :=
  s.Knotted v ∨ ∃ datum, s.datum? v = some datum ∧ stack.displays datum = false

def OverflowsTree (stack : Stack) (file source : String) : Prop :=
  stack.takes file source = false ∨
    ∃ program, (readProgram file source).result = .ok program ∧ stack.outlines program = false

/-- A command that shows what the stack does not take. -/
def OverflowsAt (stack : Stack) (s : Store) (text : String) : Prop :=
  text = ":env" ∧ (∃ entry ∈ s.userBindings, stack.Overflows s entry.2.value) ∨
    ∃ rest, argumentOf? ":parse " text = some rest ∧ stack.OverflowsTree "<input>" rest

variable {stack : Stack} {s t : Store} {v : Value}

lemma display?_eq_none_iff : stack.display? s v = none ↔ stack.Overflows s v := by
  rw [display?, Overflows, ← Store.display?_eq_none_iff, Store.display?]
  cases s.datum? v with
  | none => simp
  | some datum => simp

lemma overflows_iff_of_saysMore (h : s.SaysMore t) : stack.Overflows t v ↔ stack.Overflows s v := by
  rw [Overflows, Overflows, h.knotted_iff, h.datum?_eq]

end Stack

section

variable {stack : Stack} {policies : Policies} {code : String}

def IsCommand (text : String) : Prop :=
  text = "" ∨ text = ":env" ∨ text = ":help" ∨ (argumentOf? ":tokens " text).isSome = true ∨
    (argumentOf? ":parse " text).isSome = true

lemma toList_prefix_of_argumentOf? {command text rest : String}
    (h : argumentOf? command text = some rest) : command.toList <+: text.toList := by
  rw [argumentOf?] at h
  split at h
  · rename_i hprefix
    exact String.startsWith_string_iff.1 hprefix
  · cases h

lemma argumentOf?_parse_of_tokens {text rest : String} (h : argumentOf? ":tokens " text = some rest) :
    argumentOf? ":parse " text = none := by
  cases hparse : argumentOf? ":parse " text with
  | none => rfl
  | some other =>
    obtain hle | hle := List.prefix_or_prefix_of_prefix (toList_prefix_of_argumentOf? h)
      (toList_prefix_of_argumentOf? hparse)
    · exact absurd hle (by decide)
    · exact absurd hle (by decide)

/-- What a session does with a complete chunk. Commands, and chunks that cannot be read, only leave
output and trace. A chunk that runs leaves the store of its run, with the output that tells how it
ended. -/
inductive Answers (stack : Stack) (policies : Policies) (s : Store) (code : String) :
    Step × Store → Prop
  | leave : Text.trim code = "exit" → Answers stack policies s code (.leave, s)
  | overflow {t : Store} : stack.OverflowsAt s (Text.trim code) → s.SaysMore t →
      Answers stack policies s code (.overflow, t)
  | command {t : Store} : IsCommand (Text.trim code) → ¬ stack.OverflowsAt s (Text.trim code) →
      s.SaysMore t → Answers stack policies s code (.more, t)
  | unreadable {t : Store} : Text.trim code ≠ "exit" → ¬ IsCommand (Text.trim code) →
      (stack.takes "<input>" code = false ∨ ∃ d, (readProgram "<input>" code).result = .error d) →
      s.SaysMore t → Answers stack policies s code (.more, t)
  | run {program : Node} {start t : Store} : Text.trim code ≠ "exit" →
      ¬ IsCommand (Text.trim code) → stack.takes "<input>" code = true →
      (readProgram "<input>" code).result = .ok program → s.SaysMore start →
      (finalStore (runProgram policies rootFrame program start)).SaysMore t →
      Answers stack policies s code (.more, t)

lemma showBindings_cases (stack : Stack) (bindings : List (String × Binding)) (s : Store) :
    ∃ t, s.SaysMore t ∧
      (showBindings stack s bindings = (.more, t) ∧
          ¬ (∃ entry ∈ bindings, stack.Overflows s entry.2.value) ∨
        showBindings stack s bindings = (.overflow, t) ∧
          ∃ entry ∈ bindings, stack.Overflows s entry.2.value) := by
  induction bindings generalizing s with
  | nil => exact ⟨s, .refl s, .inl ⟨rfl, by simp⟩⟩
  | cons entry rest ih =>
    rw [showBindings, List.exists_mem_cons_iff]
    cases htext : stack.display? s entry.2.value with
    | none => exact ⟨s, .refl s, .inr ⟨rfl, .inl (Stack.display?_eq_none_iff.1 htext)⟩⟩
    | some text =>
      have hshown : ¬ stack.Overflows s entry.2.value := by
        rw [← Stack.display?_eq_none_iff, htext]
        exact Option.some_ne_none text
      have hline : s.SaysMore (s.printLine s!"  {entry.1} = {shorten text}") := saysMore_print _ _
      obtain ⟨t, ht, hends⟩ := ih (s.printLine s!"  {entry.1} = {shorten text}")
      simp only [Stack.overflows_iff_of_saysMore hline] at hends
      refine ⟨t, hline.trans ht, ?_⟩
      rcases hends with ⟨hmore, hrest⟩ | ⟨hoverflow, hfound⟩
      · exact .inl ⟨hmore, not_or.2 ⟨hshown, hrest⟩⟩
      · exact .inr ⟨hoverflow, .inr hfound⟩

lemma showEnvironment_cases (stack : Stack) (s : Store) :
    ∃ t, s.SaysMore t ∧
      (showEnvironment stack s = (.more, t) ∧
          ¬ (∃ entry ∈ s.userBindings, stack.Overflows s entry.2.value) ∨
        showEnvironment stack s = (.overflow, t) ∧
          ∃ entry ∈ s.userBindings, stack.Overflows s entry.2.value) := by
  have hhead : s.SaysMore (s.printLine "Current environment:") := saysMore_print _ _
  have huser : (s.printLine "Current environment:").userBindings = s.userBindings := rfl
  rw [showEnvironment, huser]
  cases hbindings : s.userBindings with
  | nil => exact ⟨_, hhead.trans (saysMore_print _ _), .inl ⟨rfl, by simp⟩⟩
  | cons entry rest =>
    obtain ⟨t, ht, hends⟩ :=
      showBindings_cases stack (entry :: rest) (s.printLine "Current environment:")
    simp only [Stack.overflows_iff_of_saysMore hhead] at hends
    exact ⟨t, hhead.trans ht, hends⟩

lemma saysMore_showTokens (policies : Policies) (s : Store) (code : String) :
    s.SaysMore (showTokens policies s code) := by
  have hlog := s.saysMore_logAll policies.debug (readTokens "<input>" code).trace
  rw [showTokens]
  cases hread : (readTokens "<input>" code).result with
  | ok tokens => exact hlog.trans (saysMore_printLines _ _)
  | error d => exact hlog.trans (saysMore_print _ _)

lemma showTree_cases (stack : Stack) (policies : Policies) (s : Store) (code : String) :
    ∃ t, s.SaysMore t ∧
      (showTree stack policies s code = (.more, t) ∧ ¬ stack.OverflowsTree "<input>" code ∨
        showTree stack policies s code = (.overflow, t) ∧ stack.OverflowsTree "<input>" code) := by
  have hlog (lines : List String) := s.saysMore_logAll policies.debug lines
  simp only [showTree, Stack.OverflowsTree]
  cases htakes : stack.takes "<input>" code with
  | false => exact ⟨_, hlog _, .inr ⟨rfl, .inl rfl⟩⟩
  | true =>
    cases hread : (readProgram "<input>" code).result with
    | error d => exact ⟨_, (hlog _).trans (saysMore_print _ _), .inl ⟨rfl, by simp⟩⟩
    | ok program =>
      cases houtline : stack.outlines program with
      | true =>
        simp only [if_true, houtline]
        exact ⟨_, (hlog _).trans (saysMore_print _ _), .inl ⟨rfl, by simp [houtline]⟩⟩
      | false =>
        simp only [if_true, houtline, Bool.false_eq_true, if_false]
        exact ⟨_, hlog _, .inr ⟨rfl, .inr ⟨program, rfl, houtline⟩⟩⟩

lemma saysMore_showValue (s : Store) (v : Value) : s.SaysMore (showValue stack s v) := by
  unfold showValue
  split
  · exact .refl s
  · split
    · exact s.saysMore_print _
    · exact s.saysMore_print _

lemma saysMore_showOutcome (stack : Stack) (code : String) (ending : Outcome × Store) :
    ending.2.SaysMore (showOutcome stack code ending) := by
  obtain ⟨outcome, s⟩ := ending
  cases outcome with
  | value v => exact saysMore_showValue s v
  | failed d => exact s.saysMore_print _
  | returned | tooDeep | exhausted => exact s.saysMore_print _

lemma runChunk_answers (hexit : Text.trim code ≠ "exit") (hcommand : ¬ IsCommand (Text.trim code))
    (policies : Policies) (s : Store) :
    Answers stack policies s code (.more, runChunk stack policies s code) := by
  have hlog (lines : List String) := s.saysMore_logAll policies.debug lines
  have hshow := saysMore_showOutcome stack code
    (runSource policies.debug policies "<input>" code s)
  rw [runChunk]
  cases htakes : stack.takes "<input>" code with
  | false => exact .unreadable hexit hcommand (.inl htakes) ((hlog _).trans (saysMore_print _ _))
  | true =>
    rw [if_pos rfl]
    cases hread : (readProgram "<input>" code).result with
    | error d =>
      have hrun : (runSource policies.debug policies "<input>" code s).2 =
          s.logAll policies.debug (readProgram "<input>" code).trace := by rw [runSource, hread]
      rw [hrun] at hshow
      exact .unreadable hexit hcommand (.inr ⟨d, hread⟩) ((hlog _).trans hshow)
    | ok program =>
      have hrun : (runSource policies.debug policies "<input>" code s).2 = finalStore
          (runProgram policies rootFrame program
            (s.logAll policies.debug (readProgram "<input>" code).trace)) := by
        rw [runSource_of_ok hread, ← runProgram_eq_settle, Outcome.snd_of]
      rw [hrun] at hshow
      exact .run hexit hcommand htakes hread (hlog _) hshow

lemma handleChunk_answers (stack : Stack) (policies : Policies) (s : Store) (code : String) :
    Answers stack policies s code (handleChunk stack policies s code) := by
  have hquiet {text : String} (henv : text ≠ ":env") (hparse : argumentOf? ":parse " text = none) :
      ¬ stack.OverflowsAt s text := by
    rintro (⟨h, -⟩ | ⟨rest, h, -⟩)
    · exact henv h
    · cases hparse.symm.trans h
  rw [handleChunk]
  by_cases hexit : Text.trim code = "exit"
  · rw [if_pos hexit]
    exact .leave hexit
  rw [if_neg hexit]
  by_cases hempty : Text.trim code = ""
  · rw [if_pos hempty]
    exact .command (.inl hempty) (hempty ▸ hquiet (by decide) (by decide)) (.refl s)
  rw [if_neg hempty]
  by_cases henv : Text.trim code = ":env"
  · have hparse : argumentOf? ":parse " (Text.trim code) = none := by rw [henv]; decide
    rw [if_pos henv]
    obtain ⟨t, ht, ⟨hmore, hshown⟩ | ⟨hoverflow, hfound⟩⟩ := showEnvironment_cases stack s
    · rw [hmore]
      refine .command (.inr (.inl henv)) ?_ ht
      rintro (⟨-, hfound⟩ | ⟨rest, hrest, -⟩)
      · exact hshown hfound
      · cases hparse.symm.trans hrest
    · rw [hoverflow]
      exact .overflow (.inl ⟨henv, hfound⟩) ht
  rw [if_neg henv]
  by_cases hhelp : Text.trim code = ":help"
  · rw [if_pos hhelp]
    exact .command (.inr (.inr (.inl hhelp))) (hhelp ▸ hquiet (by decide) (by decide))
      (s.saysMore_printLines _)
  rw [if_neg hhelp]
  cases htokens : argumentOf? ":tokens " (Text.trim code) with
  | some rest =>
    have hcommand : IsCommand (Text.trim code) := by simp [IsCommand, htokens]
    exact .command hcommand (hquiet henv (argumentOf?_parse_of_tokens htokens))
      (saysMore_showTokens policies s rest)
  | none =>
    cases hparse : argumentOf? ":parse " (Text.trim code) with
    | some rest =>
      have hcommand : IsCommand (Text.trim code) := by simp [IsCommand, hparse]
      dsimp only
      obtain ⟨t, ht, ⟨hmore, hshown⟩ | ⟨hoverflow, hfound⟩⟩ :=
        showTree_cases stack policies s rest
      · rw [hmore]
        refine .command hcommand ?_ ht
        rintro (⟨h, -⟩ | ⟨rest', h, hfound⟩)
        · exact henv h
        · cases hparse.symm.trans h
          exact hshown hfound
      · rw [hoverflow]
        exact .overflow (.inr ⟨rest, hparse, hfound⟩) ht
    | none =>
      have hcommand : ¬ IsCommand (Text.trim code) := by
        simp [IsCommand, hempty, henv, hhelp, htokens, hparse]
      exact runChunk_answers hexit hcommand policies s

namespace Dialogue

def chunk (dialogue : Dialogue) (line : String) : String :=
  match dialogue.pending with
  | some earlier => earlier ++ "\n" ++ line
  | none => line

/-- How a session over some lines ends, and in which store. It goes on as long as lines are missing
in a chunk, or the chunk is answered so. -/
inductive Session (stack : Stack) (policies : Policies) :
    Dialogue → List String → Step × Store → Prop
  | endOfInput {dialogue : Dialogue} {t : Store} : dialogue.store.SaysMore t →
      Session stack policies dialogue [] (.leave, t)
  | waits {dialogue : Dialogue} {line : String} {rest : List String} {t : Store}
      {ending : Step × Store} : needsMore (dialogue.chunk line) = true →
      dialogue.store.SaysMore t →
      Session stack policies ⟨t, some (dialogue.chunk line)⟩ rest ending →
      Session stack policies dialogue (line :: rest) ending
  | goesOn {dialogue : Dialogue} {line : String} {rest : List String} {s t : Store}
      {ending : Step × Store} : needsMore (dialogue.chunk line) = false →
      dialogue.store.SaysMore s → Answers stack policies s (dialogue.chunk line) (.more, t) →
      Session stack policies ⟨t, none⟩ rest ending →
      Session stack policies dialogue (line :: rest) ending
  | stops {dialogue : Dialogue} {line : String} {rest : List String} {s t : Store} {step : Step} :
      needsMore (dialogue.chunk line) = false → dialogue.store.SaysMore s →
      Answers stack policies s (dialogue.chunk line) (step, t) → step ≠ .more →
      Session stack policies dialogue (line :: rest) (step, t)

lemma feed_of_needsMore {dialogue : Dialogue} {line : String}
    (h : needsMore (dialogue.chunk line) = true) (policies : Policies) :
    dialogue.feed stack policies line = (.more, ⟨dialogue.store, some (dialogue.chunk line)⟩) := by
  obtain ⟨s, pending⟩ := dialogue
  cases pending <;> simp only [chunk] at h ⊢ <;> simp only [feed, h, if_true]

lemma feed_of_handleChunk {dialogue : Dialogue} {line : String} {step : Step} {t : Store}
    (h : needsMore (dialogue.chunk line) = false)
    (hchunk : handleChunk stack policies dialogue.store (dialogue.chunk line) = (step, t)) :
    dialogue.feed stack policies line = (step, ⟨t, none⟩) := by
  obtain ⟨s, pending⟩ := dialogue
  cases pending <;> simp only [chunk] at h hchunk <;>
    simp only [feed, h, hchunk, Bool.false_eq_true, if_false]

lemma converse_session (stack : Stack) (policies : Policies) (lines : List String)
    (dialogue : Dialogue) :
    Session stack policies dialogue lines (dialogue.converse stack policies lines) := by
  have hprompt (dialogue : Dialogue) : dialogue.store.SaysMore dialogue.printPrompt.store :=
    saysMore_print _ _
  -- induction on the lines, for every dialogue: each line leaves another one
  induction lines generalizing dialogue with
  | nil => exact .endOfInput ((hprompt dialogue).trans (saysMore_print _ _))
  | cons line rest ih =>
    rw [converse]
    cases hmore : needsMore (dialogue.printPrompt.chunk line) with
    | true =>
      rw [feed_of_needsMore hmore]
      exact .waits hmore (hprompt dialogue) (ih _)
    | false =>
      have hanswers := handleChunk_answers stack policies dialogue.printPrompt.store
        (dialogue.printPrompt.chunk line)
      cases hchunk : handleChunk stack policies dialogue.printPrompt.store
          (dialogue.printPrompt.chunk line) with
      | mk step t =>
        rw [hchunk] at hanswers
        rw [feed_of_handleChunk hmore hchunk]
        cases step with
        | more => exact .goesOn hmore (hprompt dialogue) hanswers (ih _)
        | leave => exact .stops hmore (hprompt dialogue) hanswers nofun
        | overflow => exact .stops hmore (hprompt dialogue) hanswers nofun

end Dialogue

end

section

variable {stack : Stack} {settings : Settings} {host : Host}

def Exit.IsRegular (exit : Exit) : Prop := exit = .status 0 ∨ exit = .status 1

lemma Exit.not_isRegular_overflow : ¬ overflow.IsRegular := by
  rintro (h | h) <;> cases h

def Stack.OverflowsResult (stack : Stack) (policies : Policies) (quiet : Bool)
    (path source : String) (s : Store) : Prop :=
  quiet = false ∧ stack.takes path source = true ∧ ∃ v t, v ≠ .null ∧
    runSource policies.debug policies path source s = (.value v, t) ∧ stack.Overflows t v

def Settings.Overflows (settings : Settings) (host : Host) (entry : FileEntry) : Prop :=
  settings.script ≠ "" ∧ settings.tokens = false ∧
    ∃ source, scriptText settings.script entry = .ok source ∧
      if settings.parse then (settings.stack host).OverflowsTree settings.script source
      else (settings.stack host).OverflowsResult (settings.limited host) settings.quiet
        settings.script source (standardStore (settings.limited host))

lemma showResult_cases (stack : Stack) (s : Store) (v : Value) :
    (showResult stack s v).1 = .status 0 ∧ (v = .null ∨ ¬ stack.Overflows s v) ∨
      (showResult stack s v).1 = .overflow ∧ v ≠ .null ∧ stack.Overflows s v := by
  rw [← Stack.display?_eq_none_iff]
  by_cases hnull : v = .null
  · subst hnull
    exact .inl ⟨rfl, .inl rfl⟩
  · have hshow : showResult stack s v = match stack.display? s v with
        | some text => (.status 0, s.printLine s!"Program result: {text}")
        | none => (.overflow, s) := by
      cases v with
      | null => exact absurd rfl hnull
      | _ => rfl
    rw [hshow]
    cases stack.display? s v with
    | none => exact .inr ⟨rfl, hnull, rfl⟩
    | some text => exact .inl ⟨rfl, .inr (Option.some_ne_none text)⟩

lemma runScript_cases (stack : Stack) (policies : Policies) (quiet : Bool) (path source : String)
    (s : Store) :
    (runScript stack policies quiet path source s).1.IsRegular ∧
        ¬ stack.OverflowsResult policies quiet path source s ∨
      (runScript stack policies quiet path source s).1 = .overflow ∧
        stack.OverflowsResult policies quiet path source s := by
  rw [Stack.OverflowsResult, runScript]
  cases htakes : stack.takes path source with
  | false =>
    refine .inl ⟨.inr rfl, ?_⟩
    rintro ⟨-, ⟨⟩, -⟩
  | true =>
    rw [if_pos rfl]
    cases hrun : runSource policies.debug policies path source s with
    | mk outcome t =>
      cases outcome with
      | value v =>
        cases quiet with
        | true =>
          refine .inl ⟨.inl rfl, ?_⟩
          rintro ⟨⟨⟩, -⟩
        | false =>
          rcases showResult_cases stack t v with
            ⟨hstatus, hshown⟩ | ⟨hoverflow, hnull, hfound⟩
          · refine .inl ⟨.inl hstatus, ?_⟩
            rintro ⟨-, -, _, _, hnull, ⟨⟩, hfound⟩
            exact hshown.elim hnull fun h => h hfound
          · exact .inr ⟨hoverflow, rfl, rfl, v, t, hnull, rfl, hfound⟩
      | failed | returned | tooDeep | exhausted =>
        refine .inl ⟨.inr rfl, ?_⟩
        rintro ⟨-, -, _, _, -, ⟨⟩, -⟩

lemma isRegular_listTokens (debug : Bool) (path source : String) (s : Store) :
    (listTokens debug path source s).1.IsRegular := by
  rw [listTokens]
  cases (readTokens path source).result with
  | ok tokens => exact .inl rfl
  | error d => exact .inr rfl

lemma listTree_cases (stack : Stack) (debug : Bool) (path source : String) (s : Store) :
    (listTree stack debug path source s).1.IsRegular ∧ ¬ stack.OverflowsTree path source ∨
      (listTree stack debug path source s).1 = .overflow ∧ stack.OverflowsTree path source := by
  simp only [listTree, Stack.OverflowsTree]
  cases htakes : stack.takes path source with
  | false => exact .inr ⟨rfl, .inl rfl⟩
  | true =>
    cases hread : (readProgram path source).result with
    | error d => exact .inl ⟨.inr rfl, by simp⟩
    | ok program =>
      cases houtline : stack.outlines program with
      | true =>
        simp only [if_true, houtline]
        exact .inl ⟨.inl rfl, by simp [houtline]⟩
      | false =>
        simp only [if_true, houtline, Bool.false_eq_true, if_false]
        exact .inr ⟨trivial, .inr ⟨program, rfl, houtline⟩⟩

inductive Opens (settings : Settings) (host : Host) (entry : FileEntry) : Plan → Prop
  | regular {exit : Exit} : exit.IsRegular → ¬ settings.Overflows host entry →
      Opens settings host entry (.finish exit)
  | overflow : settings.Overflows host entry → Opens settings host entry (.finish .overflow)
  | session : ¬ settings.Overflows host entry →
      Opens settings host entry (.converse (settings.stack host) (settings.limited host))

lemma opens_openScript (hscript : settings.script ≠ "") (entry : FileEntry) :
    Opens settings host entry (openScript host settings entry).1 := by
  rw [openScript]
  dsimp only
  cases htext : scriptText settings.script entry with
  | error lines =>
    refine .regular (.inr rfl) ?_
    rintro ⟨-, -, source, hsource, -⟩
    cases htext.symm.trans hsource
  | ok source =>
    have hoverflows : settings.Overflows host entry ↔ settings.tokens = false ∧
        if settings.parse then (settings.stack host).OverflowsTree settings.script source
        else (settings.stack host).OverflowsResult (settings.limited host) settings.quiet
          settings.script source (standardStore (settings.limited host)) := by
      rw [Settings.Overflows, htext]
      constructor
      · rintro ⟨-, htokens, _, ⟨⟩, h⟩
        exact ⟨htokens, h⟩
      · exact fun ⟨htokens, h⟩ => ⟨hscript, htokens, source, rfl, h⟩
    dsimp only
    cases htokens : settings.tokens with
    | true =>
      refine .regular (isRegular_listTokens ..) ?_
      rw [hoverflows, htokens]
      exact fun h => nomatch h.1
    | false =>
      rw [if_neg Bool.false_ne_true]
      rw [htokens, and_iff_right rfl] at hoverflows
      cases hparse : settings.parse with
      | true =>
        rw [hparse, if_pos rfl] at hoverflows
        rw [if_pos rfl]
        rcases listTree_cases (settings.stack host) (settings.limited host).debug
          settings.script source (standardStore (settings.limited host)) with
          ⟨hregular, hshown⟩ | ⟨hoverflow, hfound⟩
        · exact .regular hregular (hoverflows.not.2 hshown)
        · rw [hoverflow]
          exact .overflow (hoverflows.2 hfound)
      | false =>
        rw [hparse, if_neg Bool.false_ne_true] at hoverflows
        rw [if_neg Bool.false_ne_true]
        rcases runScript_cases (settings.stack host) (settings.limited host)
          settings.quiet settings.script source (standardStore (settings.limited host)) with
          ⟨hregular, hshown⟩ | ⟨hoverflow, hfound⟩
        · split
          · exact .session (hoverflows.not.2 hshown)
          · exact .regular hregular (hoverflows.not.2 hshown)
        · rw [hoverflow, if_neg (by simp)]
          exact .overflow (hoverflows.2 hfound)

lemma opens_openProgram {arguments : List String} (h : parseArguments arguments = .run settings)
    (hlimit : settings.limit host < limitBound) (read : String → FileEntry) :
    Opens settings host (read settings.script) (openProgram arguments read host).1 := by
  rw [openProgram, h]
  dsimp only
  rw [if_neg (Nat.not_le.2 hlimit)]
  split
  · rename_i hscript
    exact .session fun hends => hends.1 hscript
  · rename_i hscript
    exact opens_openScript hscript _

/-- On every host, each session ends as `Dialogue.Session` says: at a chunk that says `exit`, at the end
of its input, or at a command that shows what the stack does not take. The program ends with status 0
or 1, except where the limit it is given cannot be set, where a script has a tree or a value to show
that the stack does not take, and where a session comes to such an end. -/
theorem console_ends {arguments : List String} (h : parseArguments arguments = .run settings)
    (host : Host) (read : String → FileEntry) (lines : List String) :
    (∀ stack policies dialogue, Dialogue.Session stack policies dialogue lines
      (dialogue.converse stack policies lines)) ∧
    ((runConsole arguments read lines host).1 ≠ .overflow →
      (runConsole arguments read lines host).1.IsRegular) ∧
    ((runConsole arguments read lines host).1 = .overflow ↔
      limitBound ≤ settings.limit host ∨ settings.Overflows host (read settings.script) ∨
        ∃ start t, openProgram arguments read host =
            (.converse (settings.stack host) (settings.limited host), start) ∧
          (Dialogue.start (settings.limited host) start).converse (settings.stack host)
            (settings.limited host) lines = (.overflow, t)) := by
  refine ⟨fun stack policies dialogue => dialogue.converse_session stack policies lines, ?_⟩
  rw [runConsole]
  by_cases hlimit : limitBound ≤ settings.limit host
  · have hopen : openProgram arguments read host = (.finish .overflow, {}) := by
      rw [openProgram, h]
      exact if_pos hlimit
    rw [hopen]
    exact ⟨fun hne => absurd rfl hne, iff_of_true rfl (.inl hlimit)⟩
  have hopens := opens_openProgram h (Nat.not_le.1 hlimit) read
  rw [or_iff_right hlimit]
  cases hopen : openProgram arguments read host with
  | mk plan start =>
    rw [hopen] at hopens
    cases hopens with
    | regular hregular hends =>
      refine ⟨fun _ => hregular, iff_of_false ?_ ?_⟩
      · rintro rfl
        exact Exit.not_isRegular_overflow hregular
      · rintro (hfound | ⟨_, _, ⟨⟩, -⟩)
        exact hends hfound
    | overflow hends => exact ⟨fun hne => absurd rfl hne, iff_of_true rfl (.inl hends)⟩
    | session hends =>
      dsimp only
      cases hsession : (Dialogue.start (settings.limited host) start).converse (settings.stack host)
          (settings.limited host) lines with
      | mk step t =>
        cases step with
        | overflow =>
          exact ⟨fun hne => absurd rfl hne, iff_of_true rfl (.inr ⟨start, t, rfl, hsession⟩)⟩
        | more | leave =>
          refine ⟨fun _ => .inl rfl, iff_of_false nofun ?_⟩
          rintro (hfound | ⟨_, _, ⟨⟩, hoverflow⟩)
          · exact hends hfound
          · cases hsession.symm.trans hoverflow

end

/-- A map is put into itself. It cannot be shown as the value of a script, and neither can it among the
bindings of a session. On a small stack a session also ends at a tree in two pairs of parentheses, and
no program runs under a limit that is too large to be set. -/
theorem console_ends_map :
    let read : String → FileEntry := fun path =>
      if path = "s" then .file "let a = \x7b\x7d; a[\"k\"] = a".toUTF8 else .missing
    let lines := ["let a = \x7b\x7d; a[\"k\"] = a", ":env"]
    let small : Host := { stack := fun _ => .ofLimit 30 }
    let none : Settings := {}
    let script : Settings := { script := "s" }
    let huge : Settings := { recursionLimit := 2147483648 }
    parseArguments ["s"] = .run script ∧ (runConsole ["s"] read []).1 = .overflow ∧
      script.Overflows {} (read "s") ∧
    parseArguments [] = .run none ∧ (runConsole [] read lines).1 = .overflow ∧
      (∃ start t, Dialogue.Session (none.stack {}) (none.limited {})
        (.start (none.limited {}) start) lines (.overflow, t)) ∧
    (runConsole [] read [":parse ((1))"] small).1 = .overflow ∧
      (∃ start t, Dialogue.Session (none.stack small) (none.limited small)
        (.start (none.limited small) start) [":parse ((1))"] (.overflow, t)) ∧
    parseArguments ["--recursion-limit", "2147483648"] = .run huge ∧
      (runConsole ["--recursion-limit", "2147483648"] read lines).1 = .overflow ∧
      limitBound ≤ huge.limit {} := by
  intro read lines small none script huge
  have hscript : parseArguments ["s"] = .run script := by
    change interpret {} false [] [.plain "s"] = _
    rw [interpret]
    rfl
  have hnone : parseArguments [] = .run none := by
    change interpret {} false [] [] = _
    rw [interpret]
    rfl
  have hhuge : parseArguments ["--recursion-limit", "2147483648"] = .run huge := by
    change interpret {} false [] [.option .recursionLimit false .none, .plain "2147483648"] = _
    rw [interpret]
    have hlimit : limitTo {} "2147483648" = .ok huge := by rfl
    simp only [List.any, Word.isOption, hlimit]
    rw [interpret]
    rfl
  have hoverflow : (runConsole ["s"] read []).1 = .overflow := by decide +kernel
  have hsession : (runConsole [] read lines).1 = .overflow := by decide +kernel
  have hparse : (runConsole [] read [":parse ((1))"] small).1 = .overflow := by decide +kernel
  have hlimit : limitBound ≤ huge.limit {} := by decide
  have hbelow {host : Host} (h : host.limit = 10000) : ¬ limitBound ≤ none.limit host := by
    rw [Settings.limit, h]
    decide
  have hends {host : Host} {lines : List String} (hlimit : host.limit = 10000)
      (h : (runConsole [] read lines host).1 = .overflow) : ∃ start t, Dialogue.Session
        (none.stack host) (none.limited host) (.start (none.limited host) start) lines
          (.overflow, t) := by
    obtain ⟨hsessions, -, hiff⟩ := console_ends hnone host read lines
    rcases hiff.1 h with hbound | ⟨hne, -⟩ | ⟨start, t, -, hconverse⟩
    · exact absurd hbound (hbelow hlimit)
    · exact absurd rfl hne
    · exact ⟨start, t, hconverse ▸ hsessions _ _ _⟩
  refine ⟨hscript, hoverflow, ?_, hnone, hsession, hends rfl hsession, hparse,
    hends rfl hparse, hhuge, ?_, hlimit⟩
  · obtain ⟨-, -, hiff⟩ := console_ends hscript {} read []
    rcases hiff.1 hoverflow with hbound | hfound | ⟨start, t, -, hconverse⟩
    · exact absurd hbound (by decide)
    · exact hfound
    · cases hconverse
  · exact (console_ends hhuge {} read lines).2.2.2 (.inl hlimit)

end Klang.Console
