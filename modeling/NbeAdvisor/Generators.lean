import Mathlib.Data.List.Basic

/-!
# Generators and the loops over them

A `Generator` yields its values one by one, and in the end it returns or raises. What comes after a
value is what it does once it is asked for the next one.

`consume` is a `for` loop over a generator : the body runs on each value with a state of its own,
and goes on to the next value, leaves the loop, or raises. The loop ends with the state, how it
ended, and what it has not asked for. It takes the values on which the body goes on one by one
(`consume_prepend`), and what the body keeps is kept by the loop (`consume_invariant`).
-/

namespace Generators

variable {α β σ ε : Type*}

/-- A generator that yields finitely many values. -/
inductive Generator (α ε : Type*) where
  | returns
  | raises (e : ε)
  | yields (a : α) (rest : Generator α ε)

/-- How the body of a loop ends on a value. -/
inductive Signal (β ε : Type*) where
  | next
  | leave (b : β)
  | raise (e : ε)

/-- How a loop ends. -/
inductive LoopEnd (β ε : Type*) where
  | exhausted
  | left (b : β)
  | raised (e : ε)

namespace Generator

/-- The values of a list, and then those of `g`. -/
def prepend : List α → Generator α ε → Generator α ε
  | [], g => g
  | a :: as, g => .yields a (prepend as g)

theorem prepend_cons (a : α) (as : List α) (g : Generator α ε) :
    prepend (a :: as) g = .yields a (prepend as g) := rfl

/-- Two lists in front of a generator. -/
theorem prepend_append (as bs : List α) (g : Generator α ε) :
    prepend (as ++ bs) g = prepend as (prepend bs g) := by
  induction as with
  | nil => rfl
  | cons a as ih => exact congrArg _ ih

/-- A `for` loop. -/
def consume (body : σ → α → σ × Signal β ε) :
    σ → Generator α ε → σ × LoopEnd β ε × Generator α ε
  | s, .returns => (s, .exhausted, .returns)
  | s, .raises e => (s, .raised e, .returns)
  | s, .yields a rest =>
    match body s a with
    | (s', .next) => consume body s' rest
    | (s', .leave b) => (s', .left b, rest)
    | (s', .raise e) => (s', .raised e, rest)

section Consume

variable {body : σ → α → σ × Signal β ε} {s s' : σ} {a : α} {b : β} {e : ε}
  {rest : Generator α ε}

/-- The loop goes on. -/
theorem consume_next (h : body s a = (s', .next)) :
    consume body s (.yields a rest) = consume body s' rest := by
  rw [consume, h]

/-- The loop is left. -/
theorem consume_leave (h : body s a = (s', .leave b)) :
    consume body s (.yields a rest) = (s', .left b, rest) := by
  rw [consume, h]

/-- The body raises. -/
theorem consume_raise (h : body s a = (s', .raise e)) :
    consume body s (.yields a rest) = (s', .raised e, rest) := by
  rw [consume, h]

/-- Where a loop is once its body has ended with this signal and `rest` is to come. -/
def At (body : σ → α → σ × Signal β ε) (rest : Generator α ε)
    (out : σ × LoopEnd β ε × Generator α ε) (s : σ) : Signal β ε → Prop
  | .next => out = consume body s rest
  | .leave b => ∃ unread, out = (s, .left b, unread)
  | .raise e => ∃ unread, out = (s, .raised e, unread)

/-- Where the loop is after one item. -/
theorem consume_at (body : σ → α → σ × Signal β ε) (s : σ) (a : α) (rest : Generator α ε) :
    At body rest (consume body s (.yields a rest)) (body s a).1 (body s a).2 := by
  rcases h : body s a with ⟨s', signal⟩
  cases signal with
  | next => exact consume_next h
  | leave b => exact ⟨rest, consume_leave h⟩
  | raise e => exact ⟨rest, consume_raise h⟩

/-- The body goes on at each of the values, to the state `go`. -/
theorem consume_prepend {go : σ → α → σ} {as : List α}
    (h : ∀ a ∈ as, ∀ s, body s a = (go s a, .next)) (s : σ) (g : Generator α ε) :
    consume body s (prepend as g) = consume body (as.foldl go s) g := by
  induction as generalizing s with
  | nil => rfl
  | cons a as ih =>
    rw [prepend_cons, consume_next (h a List.mem_cons_self s), List.foldl_cons]
    exact ih (fun b hb => h b (List.mem_cons_of_mem a hb)) _

/-- What every run of the body keeps. -/
theorem consume_invariant {P : σ → Prop} (h : ∀ s a, P s → P (body s a).1) (hs : P s)
    (g : Generator α ε) : P (consume body s g).1 := by
  induction g generalizing s with
  | returns => exact hs
  | raises e => exact hs
  | yields a rest ih =>
    have hnext := h s a hs
    rw [consume]
    split
    · next heq => exact ih (by rwa [heq] at hnext)
    · next heq => rwa [heq] at hnext
    · next heq => rwa [heq] at hnext

end Consume

end Generator

end Generators
