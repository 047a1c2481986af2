import Mathlib.Data.List.Forall2
import FortranInterface.Grammar.Cursor

/-!
Rules for readers that succeed. `Reads reader tokens rest post` says that the reader takes just the
given tokens where the given rest follows them, and that `post` holds of the tree it gives. There is
one rule for each of the steps of which readers are made.
-/

namespace FortranInterface.Grammar

variable {n : Nat} {α β : Type}

def next? (tokens : List Token) : Option Lexeme :=
  tokens.head?.map Token.lexeme

@[simp] theorem next?_nil : next? [] = none := rfl

@[simp] theorem next?_cons (token : Token) (tokens : List Token) :
    next? (token :: tokens) = some token.lexeme := rfl

/-- From each cursor in front of the tokens and the rest the reader succeeds and stops in front of
the rest. -/
def Reads (reader : Reader n α) (tokens rest : List Token) (post : α → Prop) : Prop :=
  ∀ cursor : Cursor n, cursor.rest = tokens ++ rest →
    ∃ value after, reader cursor = .ok value after ∧ after.rest = rest ∧ post value

namespace Reads

variable {tokens more rest : List Token} {middle : α → Prop} {post : β → Prop}

theorem mono {reader : Reader n β} {weaker : β → Prop} (reads : Reads reader tokens rest post)
    (weaken : ∀ value, post value → weaker value) : Reads reader tokens rest weaker := by
  intro cursor at_tokens
  obtain ⟨value, after, result, at_rest, holds⟩ := reads cursor at_tokens
  exact ⟨value, after, result, at_rest, weaken value holds⟩

theorem pure {value : β} (holds : post value) : Reads (n := n) (pure value) [] rest post := by
  intro cursor at_rest
  exact ⟨value, cursor, rfl, at_rest, holds⟩

variable {next : α → Reader n β}

theorem bind {reader : Reader n α} (first : Reads reader tokens (more ++ rest) middle)
    (second : ∀ value, middle value → Reads (next value) more rest post) :
    Reads (reader >>= next) (tokens ++ more) rest post := by
  intro cursor at_tokens
  obtain ⟨value, after, result, at_more, holds⟩ := first cursor (by simpa using at_tokens)
  obtain ⟨found, last, next_result, at_rest, found_holds⟩ := second value holds after at_more
  refine ⟨found, last, ?_, at_rest, found_holds⟩
  simp only [Bind.bind, EStateM.bind, result, next_result]

/-! Looking at the cursor. -/

theorem get_bind {look : Cursor n → α}
    (reads : ∀ cursor : Cursor n, cursor.rest = tokens ++ rest → Reads (next (look cursor)) tokens rest post) :
    Reads ((do return look (← get)) >>= next) tokens rest post := by
  intro cursor at_tokens
  exact reads cursor at_tokens cursor at_tokens

variable {next : Option Lexeme → Reader n β}

theorem peek_bind (reads : Reads (next (next? (tokens ++ rest))) tokens rest post) :
    Reads (peek >>= next) tokens rest post := by
  refine get_bind fun cursor at_tokens => ?_
  rw [Cursor.lexeme?, at_tokens]
  exact reads

theorem peekSecond_bind (reads : Reads (next (next? (tokens ++ rest).tail)) tokens rest post) :
    Reads (peekSecond >>= next) tokens rest post := by
  refine get_bind fun cursor at_tokens => ?_
  rw [at_tokens, ← List.head?_tail]
  exact reads

theorem remaining_bind {next : Nat → Reader n β} (reads : Reads (next (tokens ++ rest).length) tokens rest post) :
    Reads (remaining >>= next) tokens rest post := by
  refine get_bind fun cursor at_tokens => ?_
  rw [at_tokens]
  exact reads

variable {next : Span → Reader n β}

theorem here_bind (reads : ∀ span, Reads (next span) tokens rest post) : Reads (here >>= next) tokens rest post :=
  get_bind fun _ _ => reads _

theorem start_bind {next : Nat → Reader n β} (reads : ∀ start, Reads (next start) tokens rest post) :
    Reads (start >>= next) tokens rest post :=
  get_bind fun _ _ => reads _

theorem spanFrom_bind {start : Nat} (reads : ∀ span, Reads (next span) tokens rest post) :
    Reads (spanFrom start >>= next) tokens rest post :=
  get_bind fun _ _ => reads _

variable {next : Bool → Reader n β} {mark : Mark}

theorem isNextMark_bind (reads : Reads (next (decide (next? (tokens ++ rest) = some (.mark mark)))) tokens rest post) :
    Reads (isNextMark mark >>= next) tokens rest post := by
  intro cursor at_tokens
  have seen : cursor.lexeme? = next? (tokens ++ rest) := by
    rw [Cursor.lexeme?, at_tokens, next?]
  rw [← seen] at reads
  exact reads cursor at_tokens

variable {token : Token}

theorem isAtStatementEnd_bind_of_ne (other : token.lexeme ≠ .newline)
    (reads : Reads (next false) (token :: tokens) rest post) :
    Reads (isAtStatementEnd >>= next) (token :: tokens) rest post := by
  unfold isAtStatementEnd
  rw [bind_assoc]
  refine peek_bind ?_
  simp only [List.cons_append, next?_cons, pure_bind]
  exact reads

/-! Taking tokens. -/

theorem skip_bind {next : Unit → Reader n β} (reads : Reads (next ()) tokens rest post) :
    Reads (skip >>= next) (token :: tokens) rest post := by
  intro cursor at_tokens
  refine reads cursor.next ?_
  rcases cursor with ⟨_, bound, before, size, faults⟩
  subst at_tokens
  rfl

variable {place : Span}

theorem acceptMark_bind (reads : Reads (next true) tokens rest post) :
    Reads (acceptMark mark >>= next) (⟨.mark mark, place⟩ :: tokens) rest post := by
  unfold acceptMark accept
  rw [bind_assoc]
  refine isNextMark_bind ?_
  simp only [List.cons_append, next?_cons, decide_true, ↓reduceIte, bind_assoc, pure_bind]
  exact skip_bind reads

theorem acceptMark_bind_of_ne (other : next? (tokens ++ rest) ≠ some (.mark mark))
    (reads : Reads (next false) tokens rest post) : Reads (acceptMark mark >>= next) tokens rest post := by
  unfold acceptMark accept
  rw [bind_assoc]
  refine isNextMark_bind ?_
  simp only [other, decide_false, Bool.false_eq_true, ↓reduceIte, pure_bind]
  exact reads

theorem expectMark_bind {next : Unit → Reader n β} (reads : Reads (next ()) tokens rest post) :
    Reads (expectMark mark >>= next) (⟨.mark mark, place⟩ :: tokens) rest post := by
  unfold expectMark
  rw [bind_assoc]
  refine acceptMark_bind ?_
  simpa using reads

theorem name_bind {lexeme : Lexeme} {word : String} {next : Tree.Located → Reader n β}
    (named : lexeme.word? = some word) (reads : ∀ span, Reads (next ⟨word, span⟩) tokens rest post) :
    Reads (name >>= next) (⟨lexeme, place⟩ :: tokens) rest post := by
  unfold name
  rw [bind_assoc]
  refine peek_bind ?_
  simp only [List.cons_append, next?_cons, Option.bind_some, named, bind_assoc]
  refine here_bind fun span => skip_bind ?_
  rw [pure_bind]
  exact reads span

theorem past {reader : Reader n β} (reads : Reads reader tokens rest post) :
    Reads (past reader) (token :: tokens) rest post := by
  intro cursor at_tokens
  obtain ⟨value, after, result, at_rest, holds⟩ := reads cursor.past (by
    rcases cursor with ⟨_, bound, before, size, faults⟩
    subst at_tokens
    rfl)
  refine ⟨value, after.widen, ?_, at_rest, holds⟩
  simp only [Grammar.past, result]

end Reads

/-! Items with commas between them. -/

inductive Listed (Item : α → List Token → Prop) : List α → List Token → Prop
  | nil : Listed Item [] []
  | cons {value : α} {values : List α} {first others : List Token} {place : Span} :
    Item value first → Listed Item values others →
      Listed Item (value :: values) (⟨.mark .comma, place⟩ :: (first ++ others))

inductive Separated (Item : α → List Token → Prop) : List α → List Token → Prop
  | nil : Separated Item [] []
  | cons {value : α} {values : List α} {first others : List Token} :
    Item value first → Listed Item values others → Separated Item (value :: values) (first ++ others)

section

variable {Item : α → List Token → Prop} {Same : β → α → Prop} {item : Reader n β}
  {values : List α} {tokens rest : List Token}

theorem Listed.next_comma_or (listed : Listed Item values tokens) (rest : List Token) :
    next? (tokens ++ rest) = some (.mark .comma) ∨ tokens ++ rest = rest := by
  cases listed with
  | nil => exact .inr rfl
  | cons => exact .inl rfl

variable (listed : Listed Item values tokens) (last : next? rest ≠ some (.mark .comma))
  (reads : ∀ value tokens others, Item value tokens → next? others = some (.mark .comma) ∨ others = rest →
    Reads item tokens others (Same · value))
include listed last reads

theorem Listed.reads_moreWithin {turns : Nat} (enough : tokens.length ≤ turns) (done : Array β) :
    Reads (moreWithin item turns done) tokens rest fun found =>
      ∃ items, found = done.toList ++ items ∧ List.Forall₂ Same items values := by
  induction listed generalizing turns done with
  | nil =>
    have finished : ∃ items, done.toList = done.toList ++ items ∧
        List.Forall₂ Same items ([] : List α) := ⟨[], by simp, .nil⟩
    cases turns with
    | zero => exact Reads.pure finished
    | succ turns =>
      refine Reads.acceptMark_bind_of_ne last ?_
      exact Reads.pure finished
  | @cons value values first others place written listed ih =>
    obtain _ | turns := turns
    · simp at enough
    refine Reads.acceptMark_bind ?_
    simp only [↓reduceIte]
    refine (reads value first _ written (listed.next_comma_or rest)).bind fun found same => ?_
    have enough' : others.length ≤ turns := by simp at enough; omega
    refine (ih enough' (done.push found)).mono ?_
    rintro _ ⟨items, rfl, sames⟩
    exact ⟨found :: items, by simp, .cons same sames⟩

variable (Same) in
theorem reads_separated {value : α} {first : List Token} (written : Item value first) :
    Reads (separated item) (first ++ tokens) rest (List.Forall₂ Same · (value :: values)) := by
  refine (reads value first _ written (listed.next_comma_or rest)).bind fun found same => ?_
  refine Reads.remaining_bind ?_
  refine (listed.reads_moreWithin last reads (by simp) #[found]).mono ?_
  rintro _ ⟨items, rfl, sames⟩
  exact .cons same sames

end

end FortranInterface.Grammar
