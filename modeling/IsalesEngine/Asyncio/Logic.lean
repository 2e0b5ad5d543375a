import IsalesEngine.Asyncio.Coroutine

/-!
Runs of one coroutine against the rest of the event loop, and a program logic
for them.

A machine says what the other tasks may do while the coroutine is suspended at
a given await, and which results may resume it. `wp` quantifies over every such
interleaving: it asks for an assertion at each suspension point and for a
postcondition on the outcome. The adequacy theorems at the end turn a `wp`
fact into a fact about every finite run.
-/
namespace Asyncio

/-- The event loop as seen by one coroutine: `move` is one atomic section of
another task while the coroutine is suspended, `reply` its resumption. -/
structure Machine (S : Signature) (σ : Type) where
  Move : Type
  move : S.Op → Move → σ → Option σ
  reply : (op : S.Op) → S.Reply (S.Res op) → σ → Option σ

inductive Action (S : Signature) (Mv : Type) where
  | move (m : Mv)
  | reply (op : S.Op) (r : S.Reply (S.Res op))

variable {S : Signature} {σ α β : Type} {op : S.Op}

namespace Machine
variable {M : Machine S σ} {op : S.Op} {J : σ → Prop} {s s' : σ}
  {allow : S.Op → Action S M.Move → σ → Bool}

/-- The machine in which only the allowed actions are taken. -/
def restrict (M : Machine S σ) (allow : S.Op → Action S M.Move → σ → Bool) : Machine S σ where
  Move := M.Move
  move op m s := if allow op (.move m) s then M.move op m s else none
  reply op r s := if allow op (.reply op r) s then M.reply op r s else none

section Runs
variable [DecidableEq S.Op]

def step (M : Machine S σ) : Susp S σ α → Action S M.Move → Option (Susp S σ α)
  | .done _ _, _ => none
  | .await s op k, .move m => (M.move op m s).map fun s' => .await s' op k
  | .await s op k, .reply op' r =>
      if h : op' = op then (M.reply op' r s).map fun s' => k s' (h ▸ r) else none

def exec (M : Machine S σ) (c : Susp S σ α) : List (Action S M.Move) → Option (Susp S σ α)
  | [] => some c
  | a :: as => (M.step c a).bind fun c' => M.exec c' as

end Runs

/-- Any number of atomic sections of other tasks during one await. -/
def Steps (M : Machine S σ) (op : S.Op) : σ → σ → Prop :=
  Relation.ReflTransGen fun s s' => ∃ m, M.move op m s = some s'

/-- A property of the shared state that neither other tasks nor a resumption break. -/
structure Stable (M : Machine S σ) (J : σ → Prop) : Prop where
  move : ∀ {op m s s'}, J s → M.move op m s = some s' → J s'
  reply : ∀ {op r s s'}, J s → M.reply op r s = some s' → J s'

theorem Steps.invariant (step : ∀ m t t', J t → M.move op m t = some t' → J t')
    (steps : M.Steps op s s') (holds : J s) : J s' := by
  induction steps with
  | refl => exact holds
  | tail _ last ih =>
      obtain ⟨m, moved⟩ := last
      exact step m _ _ ih moved

theorem Stable.steps (stable : M.Stable J) (steps : M.Steps op s s') (holds : J s) : J s' :=
  steps.invariant (fun _ _ _ h moved => stable.move h moved) holds

theorem Stable.and {K : σ → Prop} (left : M.Stable J) (right : M.Stable K) :
    M.Stable fun s => J s ∧ K s where
  move h moved := ⟨left.move h.1 moved, right.move h.2 moved⟩
  reply h replied := ⟨left.reply h.1 replied, right.reply h.2 replied⟩

/-- A property that neither other tasks nor a resumption at `op` break. -/
structure StableAt (M : Machine S σ) (op : S.Op) (J : σ → Prop) : Prop where
  move : ∀ {m s s'}, J s → M.move op m s = some s' → J s'
  reply : ∀ {r s s'}, J s → M.reply op r s = some s' → J s'

theorem StableAt.steps (stable : M.StableAt op J) (steps : M.Steps op s s') (holds : J s) : J s' :=
  steps.invariant (fun _ _ _ h moved => stable.move h moved) holds

theorem restrict_move_some {m : M.Move} (moved : (M.restrict allow).move op m s = some s') :
    allow op (.move m) s = true ∧ M.move op m s = some s' := by
  simp only [restrict] at moved
  split at moved
  · exact ⟨‹_›, moved⟩
  · cases moved

theorem restrict_reply_some {r : S.Reply (S.Res op)}
    (replied : (M.restrict allow).reply op r s = some s') :
    allow op (.reply op r) s = true ∧ M.reply op r s = some s' := by
  simp only [restrict] at replied
  split at replied
  · exact ⟨‹_›, replied⟩
  · cases replied

/-- Allowing every action changes nothing. -/
theorem restrict_true (M : Machine S σ) : M.restrict (fun _ _ _ => true) = M := rfl

theorem restrict_steps (kept : ∀ m t t', J t → M.move op m t = some t' → J t')
    (steps : (M.restrict allow).Steps op s s') (holds : J s) : J s' :=
  Steps.invariant (M := M.restrict allow)
    (fun m t t' h moved => kept m t t' h (restrict_move_some moved).2) steps holds

theorem Stable.restrict (stable : M.Stable J) (allow : S.Op → Action S M.Move → σ → Bool) :
    (M.restrict allow).Stable J where
  move h moved := stable.move h (restrict_move_some moved).2
  reply h replied := stable.reply h (restrict_reply_some replied).2

end Machine

/-- `I` holds at every suspension point and `Q` of every outcome, whatever the
other tasks do in between. -/
def Susp.Sat (M : Machine S σ) (I : S.Op → σ → Prop) (Q : S.Reply α → σ → Prop) :
    Susp S σ α → Prop
  | .done s r => Q r s
  | .await s op k => I op s ∧
      ∀ s₁ s₂ r, M.Steps op s s₁ → M.reply op r s₁ = some s₂ → (k s₂ r).Sat M I Q

variable {M : Machine S σ} {I I' : S.Op → σ → Prop} {Q Q' : S.Reply α → σ → Prop} {s : σ}
  {x : Coro S σ α} {c : Susp S σ α}

theorem Susp.Sat.mono (sat : c.Sat M I Q) (weaker : ∀ r s, Q r s → Q' r s) : c.Sat M I Q' := by
  induction c with
  | done s r => exact weaker r s sat
  | await s op k ih =>
      exact ⟨sat.1, fun s₁ s₂ r steps replied => ih s₂ r (sat.2 s₁ s₂ r steps replied)⟩

theorem Susp.Sat.and (left : c.Sat M I Q) (right : c.Sat M I' Q') :
    c.Sat M I (fun r s => Q r s ∧ Q' r s) := by
  induction c with
  | done s r => exact ⟨left, right⟩
  | await s op k ih =>
      exact ⟨left.1, fun s₁ s₂ r steps replied =>
        ih s₂ r (left.2 s₁ s₂ r steps replied) (right.2 s₁ s₂ r steps replied)⟩

theorem Susp.sat_andThen {Q : S.Reply β → σ → Prop} {f : σ → S.Reply α → Susp S σ β} :
    (c.andThen f).Sat M I Q ↔ c.Sat M I (fun r s => (f s r).Sat M I Q) := by
  induction c with
  | done s r => rfl
  | await s op k ih => simp only [andThen, Sat, ih]

/-- The weakest precondition of a coroutine. -/
def Coro.wp (M : Machine S σ) (I : S.Op → σ → Prop) (x : Coro S σ α)
    (Q : S.Reply α → σ → Prop) (s : σ) : Prop := (x s).Sat M I Q

/-- The postcondition of the first part of a sequence. -/
def okThen (f : α → σ → Prop) (Q : S.Reply β → σ → Prop) : S.Reply α → σ → Prop
  | .ok a, s => f a s
  | .error e, s => Q (.error e) s

/-- The postcondition of a body with an `except CancelledError` clause. -/
def cancelledThen (f : σ → Prop) (Q : S.Reply α → σ → Prop) : S.Reply α → σ → Prop
  | .error .cancelled, s => f s
  | r, s => Q r s

/-- The postcondition of a body with an `except Exception` clause. -/
def errorThen (f : S.Err → σ → Prop) (Q : S.Reply α → σ → Prop) : S.Reply α → σ → Prop
  | .error (.error e), s => f e s
  | r, s => Q r s

/-- The postcondition of a `finally` block run after the outcome `r`. -/
def finallyThen (r : S.Reply α) (Q : S.Reply α → σ → Prop) : S.Reply Unit → σ → Prop
  | .ok _, s => Q r s
  | .error e, s => Q (.error e) s

namespace Coro

theorem wp.mono (sat : x.wp M I Q s) (weaker : ∀ r s, Q r s → Q' r s) : x.wp M I Q' s :=
  Susp.Sat.mono sat weaker

/-- Two postconditions of one coroutine, each with its own assertions. -/
theorem wp.and (left : x.wp M I Q s) (right : x.wp M I' Q' s) :
    x.wp M I (fun r s => Q r s ∧ Q' r s) s := Susp.Sat.and left right

theorem wp_andThen {x : Coro S σ β} {f : S.Reply β → Coro S σ α} :
    (x.andThen f).wp M I Q s ↔ x.wp M I (fun r => (f r).wp M I Q) s := Susp.sat_andThen

@[simp] theorem wp_pure (a : α) : (pure a : Coro S σ α).wp M I Q s ↔ Q (.ok a) s := Iff.rfl

@[simp] theorem wp_raise (e : Exc S.Err) :
    (raise e : Coro S σ α).wp M I Q s ↔ Q (.error e) s := Iff.rfl

@[simp] theorem wp_bind (x : Coro S σ β) (f : β → Coro S σ α) :
    (x >>= f).wp M I Q s ↔ x.wp M I (okThen (fun b => (f b).wp M I Q) Q) s := by
  refine wp_andThen.trans (Iff.of_eq ?_)
  congr 1
  funext r s'
  cases r <;> rfl

theorem wp_read_bind {f : σ → β} {g : β → Coro S σ α} :
    (read f >>= g).wp M I Q s ↔ (g (f s)).wp M I Q s := Iff.rfl

theorem wp_update_bind {f : σ → σ} {g : Unit → Coro S σ α} :
    (update f >>= g).wp M I Q s ↔ (g ()).wp M I Q (f s) := Iff.rfl

theorem wp_act_bind {f : σ → β × σ} {g : β → Coro S σ α} :
    (act f >>= g).wp M I Q s ↔ (g (f s).1).wp M I Q (f s).2 := Iff.rfl

@[simp] theorem wp_exceptCancelled (x h : Coro S σ α) :
    (x.exceptCancelled h).wp M I Q s ↔ x.wp M I (cancelledThen (h.wp M I Q) Q) s := by
  refine wp_andThen.trans (Iff.of_eq ?_)
  congr 1
  funext r s'
  rcases r with ((_ | _) | _) <;> rfl

@[simp] theorem wp_exceptError (x : Coro S σ α) (h : S.Err → Coro S σ α) :
    (x.exceptError h).wp M I Q s ↔ x.wp M I (errorThen (fun e => (h e).wp M I Q) Q) s := by
  refine wp_andThen.trans (Iff.of_eq ?_)
  congr 1
  funext r s'
  rcases r with ((_ | _) | _) <;> rfl

@[simp] theorem wp_andFinally (x : Coro S σ α) (y : Coro S σ Unit) :
    (x.andFinally y).wp M I Q s ↔ x.wp M I (fun r => y.wp M I (finallyThen r Q)) s := by
  refine wp_andThen.trans (Iff.of_eq ?_)
  congr 1
  funext r s'
  refine propext (wp_andThen.trans (Iff.of_eq ?_))
  congr 1
  funext r' s''
  cases r' <;> rfl

@[simp] theorem wp_suppress {Q : S.Reply Unit → σ → Prop} (p : Exc S.Err → Bool)
    (x : Coro S σ Unit) :
    (x.suppress p).wp M I Q s ↔
      x.wp M I (fun r s' => match r with
        | .ok _ => Q (.ok ()) s'
        | .error e => if p e then Q (.ok ()) s' else Q (.error e) s') s := by
  refine wp_andThen.trans (Iff.of_eq ?_)
  congr 1
  funext r s'
  rcases r with (e | _)
  · by_cases h : p e <;> simp [h]
  · rfl

@[simp] theorem wp_when {Q : S.Reply Unit → σ → Prop} (c : Bool) (x : Coro S σ Unit) :
    (Coro.when c x).wp M I Q s ↔ if c then x.wp M I Q s else Q (.ok ()) s := by
  cases c <;> rfl

/-- The sequencing rule: the first part is known by a specification of its own. -/
theorem wp.bind {P : S.Reply β → σ → Prop} {x : Coro S σ β} {f : β → Coro S σ α}
    (first : x.wp M I P s) (ok : ∀ b s, P (.ok b) s → (f b).wp M I Q s)
    (error : ∀ e s, P (.error e) s → Q (.error e) s) : (x >>= f).wp M I Q s := by
  refine (wp_bind x f).mpr (first.mono ?_)
  intro r s' post
  cases r with
  | ok b => exact ok b s' post
  | error e => exact error e s' post

/-- The rule of `except Exception`. -/
theorem wp.exceptError {P : S.Reply α → σ → Prop} {h : S.Err → Coro S σ α} (body : x.wp M I P s)
    (ok : ∀ a s, P (.ok a) s → Q (.ok a) s)
    (cancelled : ∀ s, P (.error .cancelled) s → Q (.error .cancelled) s)
    (error : ∀ e s, P (.error (.error e)) s → (h e).wp M I Q s) : (x.exceptError h).wp M I Q s := by
  refine (wp_exceptError x h).mpr (body.mono ?_)
  intro r s' post
  match r with
  | .ok a => exact ok a s' post
  | .error .cancelled => exact cancelled s' post
  | .error (.error e) => exact error e s' post

/-- The rule of `finally`. -/
theorem wp.andFinally {P : S.Reply α → σ → Prop} {y : Coro S σ Unit} (body : x.wp M I P s)
    (last : ∀ r s, P r s → y.wp M I (finallyThen r Q) s) : (x.andFinally y).wp M I Q s :=
  (wp_andFinally x y).mpr (body.mono last)

/-- The rule of `suppress` when it catches whatever its body raises. -/
theorem wp.suppress {Q : S.Reply Unit → σ → Prop} {P : S.Reply Unit → σ → Prop}
    {p : Exc S.Err → Bool} {x : Coro S σ Unit} (body : x.wp M I P s)
    (caught : ∀ r s, P r s → (∀ e, r = .error e → p e = true) ∧ Q (.ok ()) s) :
    (x.suppress p).wp M I Q s := by
  refine (wp_suppress p x).mpr (body.mono ?_)
  intro r s' post
  obtain ⟨catches, ok⟩ := caught r s' post
  cases r with
  | ok _ => exact ok
  | error e => simpa [catches e rfl] using ok

theorem wp_wait {Q : S.Reply (S.Res op) → σ → Prop} : (wait op : Coro S σ _).wp M I Q s ↔
      I op s ∧ ∀ s₁ s₂ r, M.Steps op s s₁ → M.reply op r s₁ = some s₂ → Q r s₂ := Iff.rfl

/-- Waiting keeps every stable property. -/
theorem wp_wait_stable {J : σ → Prop} (stable : M.Stable J) (holds : J s)
    (assertion : ∀ s, J s → I op s) : (wait op : Coro S σ _).wp M I (fun _ => J) s :=
  wp_wait.mpr ⟨assertion s holds, fun _ _ _ steps replied =>
    stable.reply (stable.steps steps holds) replied⟩

end Coro

section Adequacy
variable {acts : List (Action S M.Move)}

/-- The states in which a coroutine can be found while it waits at `op`. -/
def Machine.Waiting (M : Machine S σ) (I : S.Op → σ → Prop) (op : S.Op) (s : σ) : Prop :=
  ∃ s₀, I op s₀ ∧ M.Steps op s₀ s

theorem Susp.Sat.waiting (sat : c.Sat M I Q) : c.Sat M (M.Waiting I) Q := by
  induction c with
  | done s r => exact sat
  | await s op k ih =>
      exact ⟨⟨s, sat.1, .refl⟩, fun s₁ s₂ r steps replied => ih s₂ r (sat.2 s₁ s₂ r steps replied)⟩

variable [DecidableEq S.Op]

theorem Susp.Sat.step {c' : Susp S σ α} {a : Action S M.Move} (sat : c.Sat M (M.Waiting I) Q)
    (stepped : M.step c a = some c') : c'.Sat M (M.Waiting I) Q := by
  cases c with
  | done s r => cases stepped
  | await s op k =>
      obtain ⟨⟨s₀, here, before⟩, after⟩ := sat
      cases a with
      | move m =>
          simp only [Machine.step, Option.map_eq_some_iff] at stepped
          obtain ⟨s', moved, rfl⟩ := stepped
          exact ⟨⟨s₀, here, before.tail ⟨m, moved⟩⟩,
            fun s₁ s₂ r steps => after s₁ s₂ r (.head ⟨m, moved⟩ steps)⟩
      | reply op' r =>
          simp only [Machine.step] at stepped
          split at stepped
          · rename_i same
            subst same
            simp only [Option.map_eq_some_iff] at stepped
            obtain ⟨s', replied, rfl⟩ := stepped
            exact after s s' r .refl replied
          · cases stepped

theorem Susp.Sat.exec {c' : Susp S σ α} (sat : c.Sat M (M.Waiting I) Q)
    (run : M.exec c acts = some c') : c'.Sat M (M.Waiting I) Q := by
  induction acts generalizing c with
  | nil =>
      simp only [Machine.exec, Option.some.injEq] at run
      exact run ▸ sat
  | cons a as ih =>
      simp only [Machine.exec, Option.bind_eq_some_iff] at run
      obtain ⟨c₁, stepped, rest⟩ := run
      exact ih (sat.step stepped) rest

/-- Every run that ends does so in a state meeting the postcondition. -/
theorem Coro.wp.result (sat : x.wp M I Q s) (run : M.exec (x s) acts = some c) {r : S.Reply α}
    (ended : c.result? = some r) : Q r c.state := by
  have final := (Susp.Sat.waiting sat).exec run
  cases c with
  | done s' r' =>
      simp only [Susp.result?, Option.some.injEq] at ended
      exact ended ▸ final
  | await _ _ _ => cases ended

/-- A property asserted at every await and kept by the other tasks holds
throughout every run. -/
theorem Coro.wp.always {J : σ → Prop} (sat : x.wp M I Q s) (atAwait : ∀ op s, I op s → J s)
    (kept : ∀ op m s s', J s → M.move op m s = some s' → J s') (atEnd : ∀ r s, Q r s → J s)
    (run : M.exec (x s) acts = some c) : J c.state := by
  have final := (Susp.Sat.waiting sat).exec run
  cases c with
  | done s' r => exact atEnd r s' final
  | await s' op k =>
      obtain ⟨s₀, here, steps⟩ := final.1
      exact steps.invariant (kept op) (atAwait op s₀ here)

/-- Wherever a run is suspended, the assertion held when the wait began. -/
theorem Coro.wp.waiting (sat : x.wp M I Q s) (run : M.exec (x s) acts = some c)
    (suspended : c.waitsAt? = some op) : M.Waiting I op c.state := by
  have final := (Susp.Sat.waiting sat).exec run
  cases c with
  | done _ _ => cases suspended
  | await s' op' k =>
      obtain rfl := Option.some.inj suspended
      exact final.1

end Adequacy
end Asyncio
