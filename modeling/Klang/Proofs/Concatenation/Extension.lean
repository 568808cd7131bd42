import Klang.Proofs.Concatenation.Lexemes
import Klang.Proofs.ParserSteps
import Klang.Proofs.Respan

/-! Parsers in front of more input. What a parser reads it reads again if the tokens stand at other
places, if a semicolon and anything else follows where the input ended, and if its loops and its
descent may go further. -/

namespace Klang

def Token.spelling (t : Token) : TokenKind × String := (t.kind, t.value)

def Token.Alike (ts us : List Token) : Prop := ts.map Token.spelling = us.map Token.spelling

namespace Token

variable {t u : Token} {ts us : List Token}

lemma Alike.nil_left (h : Alike [] us) : us = [] := List.map_eq_nil_iff.1 h.symm

lemma Alike.cons_left (h : Alike (t :: ts) us) :
    ∃ u us', us = u :: us' ∧ t.spelling = u.spelling ∧ Alike ts us' := by
  obtain ⟨u, us', rfl, hu, hus⟩ := List.map_eq_cons_iff.1 h.symm
  exact ⟨u, us', rfl, hu.symm, hus.symm⟩

lemma Alike.cons (hs : Alike ts us) (h : t.spelling = u.spelling) : Alike (t :: ts) (u :: us) := by
  simp only [Alike, List.map_cons, h]
  exact congrArg _ hs

lemma Alike.length_eq (h : Alike ts us) : ts.length = us.length := by
  simpa using congrArg List.length h

def IsSpelled (test : Token → Bool) : Prop := ∀ t u, t.spelling = u.spelling → test t = test u

def IsInner (test : Token → Bool) : Prop := ∀ t, t.isSymbol ";" = true → test t = false

lemma isSpelled_of_spelling (f : TokenKind × String → Bool) : IsSpelled fun t => f t.spelling := by
  intro t u h
  simp only [h]

lemma isSpelled_isSymbol (value : String) : IsSpelled (isSymbol value) :=
  isSpelled_of_spelling fun s => (s.1 = .operator || s.1 = .delimiter) && s.2 = value

lemma isSpelled_isKeyword (value : String) : IsSpelled (isKeyword value) :=
  isSpelled_of_spelling fun s => s.1 = .keyword && s.2 = value

lemma isSpelled_isOperator (value : String) : IsSpelled (isOperator value) :=
  isSpelled_of_spelling fun s => s.1 = .operator && s.2 = value

lemma isSpelled_isDelimiter (value : String) : IsSpelled (isDelimiter value) :=
  isSpelled_of_spelling fun s => s.1 = .delimiter && s.2 = value

lemma isSpelled_isIdentifier : IsSpelled isIdentifier :=
  isSpelled_of_spelling fun s => s.1 = .identifier

lemma isSpelled_isMapKey : IsSpelled isMapKey :=
  isSpelled_of_spelling fun s => s.1 = .string || s.1 = .identifier

lemma separator_eq (h : t.isSymbol ";" = true) :
    (t.kind = .operator ∨ t.kind = .delimiter) ∧ t.value = ";" := by
  simpa [isSymbol] using h

lemma isInner_isSymbol {value : String} (hv : value ≠ ";") : IsInner (isSymbol value) := by
  intro t ht
  simp [isSymbol, (separator_eq ht).2, Ne.symm hv]

lemma isInner_isKeyword (value : String) : IsInner (isKeyword value) := by
  intro t ht
  rcases (separator_eq ht).1 with hkind | hkind <;> simp [isKeyword, hkind]

lemma isInner_isOperator {value : String} (hv : value ≠ ";") : IsInner (isOperator value) := by
  intro t ht
  simp [isOperator, (separator_eq ht).2, Ne.symm hv]

lemma isInner_isDelimiter {value : String} (hv : value ≠ ";") : IsInner (isDelimiter value) := by
  intro t ht
  simp [isDelimiter, (separator_eq ht).2, Ne.symm hv]

lemma isInner_isIdentifier : IsInner isIdentifier := by
  intro t ht
  rcases (separator_eq ht).1 with hkind | hkind <;> simp [isIdentifier, hkind]

lemma isInner_isMapKey : IsInner isMapKey := by
  intro t ht
  rcases (separator_eq ht).1 with hkind | hkind <;> simp [isMapKey, hkind]

lemma Alike.dropWhile {test : Token → Bool} (h : IsSpelled test) (hs : Alike ts us) :
    Alike (ts.dropWhile test) (us.dropWhile test) := by
  induction ts generalizing us with
  | nil =>
    obtain rfl := hs.nil_left
    exact hs
  | cons t ts ih =>
    obtain ⟨u, us, rfl, hu, hus⟩ := hs.cons_left
    rw [List.dropWhile_cons, List.dropWhile_cons, h t u hu]
    split
    · exact ih hus
    · exact hus.cons hu

lemma Alike.takeWhile {test : Token → Bool} (h : IsSpelled test) (hs : Alike ts us) :
    Alike (ts.takeWhile test) (us.takeWhile test) := by
  induction ts generalizing us with
  | nil =>
    obtain rfl := hs.nil_left
    exact hs
  | cons t ts ih =>
    obtain ⟨u, us, rfl, hu, hus⟩ := hs.cons_left
    rw [List.takeWhile_cons, List.takeWhile_cons, h t u hu]
    split
    · exact (ih hus).cons hu
    · rfl

end Token

namespace Parser

open Token

variable {α β : Type}

def Separates (ext : List Token) : Prop := ∀ t ∈ ext.head?, t.isSymbol ";" = true

/-- What the first parser reads is read by the second one at other places and in front of more
tokens. -/
def Extends (ext : List Token) (r : α → α → Prop) (p p' : Parser α) : Prop :=
  ∀ ts us a rest, Alike ts us → p ts = .ok (a, rest) →
    ∃ a' rest', p' (us ++ ext) = .ok (a', rest' ++ ext) ∧ r a a' ∧ Alike rest rest'

variable {ext : List Token} {r : α → α → Prop} {q : β → β → Prop}

lemma extends_pure {a a' : α} (h : r a a') : Extends ext r (pure a) (pure a') := by
  intro ts us b rest hs hp
  cases hp
  exact ⟨a', us, rfl, h, hs⟩

lemma extends_fail (c : Complaint) (p : Parser α) : Extends ext r (fail c) p := by
  intro ts us a rest _ hp
  cases hp

lemma extends_failAt (c : Complaint) (t : Token) (p : Parser α) : Extends ext r (failAt c t) p := by
  intro ts us a rest _ hp
  cases hp

lemma extends_exhausted (p : Parser α) : Extends ext r exhausted p := by
  intro ts us a rest _ hp
  cases hp

lemma Extends.bind {p p' : Parser α} {k k' : α → Parser β} (hp : Extends ext r p p')
    (hk : ∀ a a', r a a' → Extends ext q (k a) (k' a')) :
    Extends ext q (p >>= k) (p' >>= k') := by
  intro ts us b rest hs hrun
  obtain ⟨a, mid, hpa, hka⟩ := bind_eq_ok.1 hrun
  obtain ⟨a', mid', hpa', ha, hmid⟩ := hp ts us a mid hs hpa
  obtain ⟨b', rest', hkb, hb, hrest⟩ := hk a a' ha mid mid' b rest hmid hka
  exact ⟨b', rest', bind_eq_ok.2 ⟨a', _, hpa', hkb⟩, hb, hrest⟩

lemma extends_expect {test : Token → Bool} (h : IsSpelled test) (c c' : Complaint) :
    Extends ext (fun t u => t.spelling = u.spelling) (expect test c) (expect test c') := by
  intro ts us t rest hs hp
  obtain ⟨rfl, ht⟩ := expect_eq_ok.1 hp
  obtain ⟨u, us, rfl, hu, hus⟩ := hs.cons_left
  exact ⟨u, us, expect_cons (by rw [← h t u hu, ht]) c' _, hu, hus⟩

lemma extends_expectSymbol (value : String) (c c' : Complaint) :
    Extends ext (fun t u => t.spelling = u.spelling) (expectSymbol value c)
      (expectSymbol value c') :=
  extends_expect (isSpelled_isSymbol value) c c'

lemma extends_advance :
    Extends ext (fun t u => t.spelling = u.spelling) advance advance :=
  extends_expect (fun _ _ _ => rfl) _ _

lemma extends_expectIdentifier (c c' : Complaint) :
    Extends ext Eq (expectIdentifier c) (expectIdentifier c') := by
  refine (extends_expect isSpelled_isIdentifier c c').bind ?_
  intro t u h
  exact extends_pure (congrArg Prod.snd h)

lemma extends_ask {f : List Token → α}
    (h : ∀ ts us, Alike ts us → r (f ts) (f (us ++ ext))) :
    Extends ext r (fun ts => .ok (f ts, ts)) (fun ts => .ok (f ts, ts)) := by
  intro ts us a rest hs hp
  cases hp
  exact ⟨_, us, rfl, h ts us hs, hs⟩

lemma extends_rounds : Extends ext LE.le rounds rounds :=
  extends_ask fun ts us h => by
    rw [List.length_append, h.length_eq]
    omega

lemma Extends.ite {c : Prop} [Decidable c] {p p' q q' : Parser α} (hp : Extends ext r p p')
    (hq : Extends ext r q q') : Extends ext r (if c then p else q) (if c then p' else q') := by
  split
  · exact hp
  · exact hq

lemma extends_unlessEnd {c c' : Complaint} {p p' : Parser α} (h : Extends ext r p p') :
    Extends ext r (atEnd >>= fun e => if e then fail c else p)
      (atEnd >>= fun e => if e then fail c' else p') := by
  intro ts us a rest hs hp
  simp only [atEnd_bind, if_apply, fail_apply] at hp ⊢
  cases ts with
  | nil => cases hp
  | cons t ts =>
    obtain ⟨u, us, rfl, hu, hus⟩ := hs.cons_left
    exact h _ _ _ _ (hus.cons hu) hp

lemma dropWhile_append_of_ne_nil {test : Token → Bool} {ts : List Token} (us : List Token)
    (h : ts.dropWhile test ≠ []) : (ts ++ us).dropWhile test = ts.dropWhile test ++ us := by
  rw [List.dropWhile_append, if_neg (by simpa using h)]

lemma extends_skipSeparators {p p' : Parser α} (hp : Extends ext r p p')
    (hend : ∀ a rest, p [] ≠ .ok (a, rest)) :
    Extends ext r (skipSeparators >>= fun _ => p) (skipSeparators >>= fun _ => p') := by
  intro ts us a rest hs hrun
  rw [skipSeparators_bind] at hrun
  have hdrop := hs.dropWhile (isSpelled_isSymbol ";")
  have hne : us.dropWhile (isSymbol ";") ≠ [] := by
    intro he
    rw [he] at hdrop
    rw [List.map_eq_nil_iff.1 hdrop] at hrun
    exact hend a rest hrun
  rw [skipSeparators_bind, dropWhile_append_of_ne_nil ext hne]
  exact hp _ _ a rest hdrop hrun

variable (hext : Separates ext)

include hext

lemma head_test {test : Token → Bool} (hs : IsSpelled test) (hi : IsInner test)
    {ts us : List Token} (h : Alike ts us) :
    (ts.head?.map test).getD false = ((us ++ ext).head?.map test).getD false := by
  cases ts with
  | nil =>
    obtain rfl := h.nil_left
    cases ext with
    | nil => rfl
    | cons t ext => exact (hi t (hext t rfl)).symm
  | cons t ts =>
    obtain ⟨u, us, rfl, hu, _⟩ := h.cons_left
    exact hs t u hu

lemma extends_next {test : Token → Bool} (hs : IsSpelled test) (hi : IsInner test) :
    Extends ext Eq (next test) (next test) :=
  extends_ask fun _ _ h => head_test hext hs hi h

lemma extends_nextSymbol {value : String} (hv : value ≠ ";") :
    Extends ext Eq (nextSymbol value) (nextSymbol value) :=
  extends_next hext (isSpelled_isSymbol value) (isInner_isSymbol hv)

lemma extends_nextKeyword (value : String) :
    Extends ext Eq (nextKeyword value) (nextKeyword value) :=
  extends_next hext (isSpelled_isKeyword value) (isInner_isKeyword value)

lemma extends_takeWhile {test : Token → Bool} (hs : IsSpelled test) (hi : IsInner test) :
    Extends ext Alike (takeWhile test) (takeWhile test) := by
  intro ts us a rest h hp
  cases hp
  have hhead : ∀ t ∈ ext.head?, test t = false := fun t ht => hi t (hext t ht)
  refine ⟨us.takeWhile test, us.dropWhile test, ?_, h.takeWhile hs, h.dropWhile hs⟩
  simp only [takeWhile, takeWhile_append_of_head hhead, dropWhile_append_of_head hhead]

end Parser

end Klang
