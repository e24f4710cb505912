import LogHygiene.World

/-!
# Carrying procedures out

A procedure is carried out one request at a time, so carrying out two of them in a row is carrying out
the first and then, from the state it leaves, the second: `Procedure.run_bind`. That and the fact that a
request in a `World` is one call of `World.answerUnder` is all that a statement about a procedure needs;
none of them has to look at `Procedure.run` again.
-/

set_option autoImplicit false

namespace LogHygiene

namespace Procedure

variable {α β σ : Type} (answer : (q : Request) → σ → q.Answer × σ)

@[simp] theorem run_pure (a : α) (s : σ) : (pure a : Procedure α).run answer s = (a, s) := rfl

@[simp] theorem run_request (q : Request) (s : σ) : (request q).run answer s = answer q s := rfl

theorem run_ask (q : Request) (next : q.Answer → Procedure α) (s : σ) :
    (ask q next).run answer s = (next (answer q s).1).run answer (answer q s).2 := rfl

/-- Two procedures in a row: the second goes on where the first one ends. -/
theorem run_bind : ∀ (x : Procedure α) (f : α → Procedure β) (s : σ),
    (x >>= f).run answer s = (f (x.run answer s).1).run answer (x.run answer s).2
  | done _, _, _ => rfl
  | ask q next, f, s => run_bind (next (answer q s).1) f (answer q s).2

end Procedure

namespace World

variable (c : Conditions) (w : World)

@[simp] theorem answerUnder_read (path : String) :
    answerUnder c (.read path) w = ((c.unreadable path).elim (w.disk.read path) .error, w) := rfl

@[simp] theorem answerUnder_judge (check : SyntaxCheck) (source : Bytes) :
    answerUnder c (.judge check source) w = (c.program check source, w) := rfl

@[simp] theorem answerUnder_replace (path : String) (body : Bytes) :
    answerUnder c (.replace path body) w = ((w.disk.replace c.mishaps path body).1,
      { w with disk := (w.disk.replace c.mishaps path body).2 }) := rfl

/-! ## In a calm world -/

variable {α β : Type}

@[simp] theorem carryOut_pure (a : α) : w.carryOut (pure a) = (a, w) := rfl

@[simp] theorem carryOut_request (q : Request) : w.carryOut (Procedure.request q) = answer q w := rfl

/-- Two procedures in a row: the second goes on in the world that the first one leaves. -/
theorem carryOut_bind (x : Procedure α) (f : α → Procedure β) :
    w.carryOut (x >>= f) = (w.carryOut x).2.carryOut (f (w.carryOut x).1) :=
  Procedure.run_bind answer x f w

/-- Going on from what a procedure is known to end in. -/
theorem carryOut_bind_of {x : Procedure α} {a : α} {w' : World} (h : w.carryOut x = (a, w'))
    (f : α → Procedure β) : w.carryOut (x >>= f) = w'.carryOut (f a) := by rw [carryOut_bind, h]

/-- A request in front of a procedure. -/
theorem carryOut_ask (q : Request) (f : q.Answer → Procedure β) :
    w.carryOut (Procedure.request q >>= f) = (answer q w).2.carryOut (f (answer q w).1) := rfl

theorem answer_replace_of {w} {path : String} {body : Bytes} {fault : Option FileFault} {disk : Disk}
    (h : w.disk.replace {} path body = (fault, disk)) :
    answer (.replace path body) w = (fault, { w with disk }) := by
  have hanswer : answer (.replace path body) w =
      ((w.disk.replace {} path body).1, { w with disk := (w.disk.replace {} path body).2 }) := rfl
  rw [hanswer, h]

end World

end LogHygiene
