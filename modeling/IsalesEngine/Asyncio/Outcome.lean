import IsalesEngine.Asyncio.Logic

/-!
Postconditions by the way a coroutine ends: with a value, with an exception of
its own, or cancelled. `Keeps` says that an assertion survives a coroutine
unless it is cancelled, `Preserves` that it survives in any case. Both are
closed under the control constructs, so they are proved by following the
program text.
-/
namespace Asyncio

variable {S : Signature} {σ α β : Type}

/-- `K` after a value, `E` after an exception, `C` after a cancel. -/
def outcomes (C E : σ → Prop) (K : α → σ → Prop) : S.Reply α → σ → Prop
  | .ok a, s => K a s
  | .error .cancelled, s => C s
  | .error (.error _), s => E s

section Post
variable {C E : σ → Prop} {K : α → σ → Prop} {s : σ}

@[simp] theorem outcomes_ok (a : α) : outcomes (S := S) C E K (.ok a) s = K a s := rfl

theorem outcomes_mono {C' E' : σ → Prop} {K' : α → σ → Prop} (cancelled : ∀ s, C s → C' s)
    (error : ∀ s, E s → E' s) (ok : ∀ a s, K a s → K' a s) (r : S.Reply α) (s : σ)
    (post : outcomes C E K r s) : outcomes C' E' K' r s := by
  match r with
  | .ok a => exact ok a s post
  | .error .cancelled => exact cancelled s post
  | .error (.error e) => exact error s post

/-- One assertion, however the coroutine has ended. -/
theorem outcomes_of {P : σ → Prop} (cancelled : ∀ s, P s → C s) (error : ∀ s, P s → E s)
    (ok : ∀ a s, P s → K a s) (r : S.Reply α) (s : σ) (holds : P s) : outcomes C E K r s := by
  match r with
  | .ok a => exact ok a s holds
  | .error .cancelled => exact cancelled s holds
  | .error (.error e) => exact error s holds

theorem outcomes_same {r : S.Reply α} (post : outcomes C C (fun _ => C) r s) : C s := by
  match r with
  | .ok _ | .error .cancelled | .error (.error _) => exact post

end Post

namespace Coro
variable {M : Machine S σ} {I : S.Op → σ → Prop} {C E J K : σ → Prop} {s : σ} {N : α → σ → Prop}
  {x : Coro S σ α} {f : β → Coro S σ α} {h : S.Err → Coro S σ α} {p : Exc S.Err → Bool}
  {y : Coro S σ Unit} {z : Coro S σ β} {c : Bool} {P : α → Prop} {L : β → Prop}

theorem wp.imp {N' : α → σ → Prop} (sat : x.wp M I (outcomes C E N) s)
    (weaker : ∀ a s, N a s → N' a s) : x.wp M I (outcomes C E N') s :=
  sat.mono (outcomes_mono (fun _ h => h) (fun _ h => h) weaker)

theorem wp.fail {E' : σ → Prop} (sat : x.wp M I (outcomes C E N) s) (weaker : ∀ s, E s → E' s) :
    x.wp M I (outcomes C E' N) s := sat.mono (outcomes_mono (fun _ h => h) weaker fun _ _ h => h)

/-- The sequencing rule when both parts may end in all three ways. -/
theorem wp.seq {L : β → σ → Prop} (first : z.wp M I (outcomes C E L) s)
    (next : ∀ b s, L b s → (f b).wp M I (outcomes C E N) s) :
    (z >>= f).wp M I (outcomes C E N) s := by
  refine first.bind next ?_
  rintro (_ | e) s' post
  · exact post
  · exact post

/-- The assertion `K` survives unless the coroutine is cancelled, which leaves `C`. -/
def Keeps (M : Machine S σ) (I : S.Op → σ → Prop) (C K : σ → Prop) (x : Coro S σ α) : Prop :=
  ∀ s, K s → x.wp M I (outcomes C K fun _ => K) s

theorem Keeps.pure (a : α) : Keeps M I C K (Pure.pure a) := fun _ h => h

theorem Keeps.raise (e : S.Err) : Keeps M I C K (raise (.error e) : Coro S σ α) := fun _ h => h

theorem Keeps.read (f : σ → α) : Keeps M I C K (read f) := fun _ h => h

theorem Keeps.update {f : σ → σ} (kept : ∀ s, K s → K (f s)) : Keeps M I C K (update f) := kept

theorem Keeps.act {f : σ → α × σ} (kept : ∀ s, K s → K (f s).2) : Keeps M I C K (act f) := kept

theorem Keeps.bind (first : Keeps M I C K z) (next : ∀ b, Keeps M I C K (f b)) :
    Keeps M I C K (z >>= f) := fun s h => (first s h).seq fun b s' h' => next b s' h'

theorem Keeps.when (body : Keeps M I C K y) : Keeps M I C K (when c y) := by
  cases c with
  | true => exact body
  | false => exact Keeps.pure ()

theorem Keeps.exceptError (body : Keeps M I C K x) (handler : ∀ e, Keeps M I C K (h e)) :
    Keeps M I C K (x.exceptError h) :=
  fun s holds => (body s holds).exceptError (fun _ _ h => h) (fun _ h => h)
    (fun e s' h => handler e s' h)

/-- `suppress` of anything but a cancel. -/
theorem Keeps.suppress (cancels : p .cancelled = false) (body : Keeps M I C K y) :
    Keeps M I C K (y.suppress p) := by
  intro s holds
  refine (wp_suppress p y).mpr ((body s holds).mono ?_)
  intro r s' post
  match r with
  | .ok _ => exact post
  | .error .cancelled => simpa [cancels] using post
  | .error (.error e) =>
      dsimp only
      split
      · exact post
      · exact post

theorem Keeps.forEach {f : β → Coro S σ Unit} (body : ∀ b, Keeps M I C K (f b)) (bs : List β) :
    Keeps M I C K (forEach f bs) := by
  induction bs with
  | nil => exact Keeps.pure ()
  | cons b bs ih => exact (body b).bind fun _ => ih

/-- Use of a kept assertion at the head of a sequence whose exceptions leave `E`. -/
theorem Keeps.seq (first : Keeps M I C K z) (holds : K s) (fails : ∀ s, K s → E s)
    (next : ∀ b s, K s → (f b).wp M I (outcomes C E N) s) : (z >>= f).wp M I (outcomes C E N) s :=
  wp.seq ((first s holds).mono (outcomes_mono (fun _ h => h) fails fun _ _ h => h)) next

/-- Use of a kept assertion at the end of a sequence. -/
theorem Keeps.last (body : Keeps M I C K x) (holds : K s) (fails : ∀ s, K s → E s)
    (next : ∀ a s, K s → N a s) : x.wp M I (outcomes C E N) s :=
  (body s holds).mono (outcomes_mono (fun _ h => h) fails next)

/-- The assertion `K` survives however the coroutine ends. -/
def Preserves (M : Machine S σ) (I : S.Op → σ → Prop) (K : σ → Prop) (x : Coro S σ α) : Prop :=
  ∀ s, K s → x.wp M I (fun _ => K) s

theorem Preserves.pure (a : α) : Preserves M I K (Pure.pure a) := fun _ h => h

theorem Preserves.raise (e : Exc S.Err) : Preserves M I K (raise e : Coro S σ α) := fun _ h => h

theorem Preserves.read (f : σ → α) : Preserves M I K (read f) := fun _ h => h

theorem Preserves.update {f : σ → σ} (kept : ∀ s, K s → K (f s)) :
    Preserves M I K (update f) := kept

theorem Preserves.act {f : σ → α × σ} (kept : ∀ s, K s → K (f s).2) :
    Preserves M I K (act f) := kept

theorem Preserves.wait (stable : M.Stable K) (assertion : ∀ op s, K s → I op s) (op : S.Op) :
    Preserves M I K (wait op) := fun _ holds => wp_wait_stable stable holds (assertion op)

theorem Preserves.waitAt {op : S.Op} (stable : M.StableAt op K) (assertion : ∀ s, K s → I op s) :
    Preserves M I K (Coro.wait op) :=
  fun s holds => wp_wait.mpr ⟨assertion s holds, fun _ _ _ steps replied =>
    stable.reply (stable.steps steps holds) replied⟩

theorem Preserves.andThen {f : S.Reply β → Coro S σ α} (first : Preserves M I K z)
    (next : ∀ r, Preserves M I K (f r)) : Preserves M I K (z.andThen f) :=
  fun s h => wp_andThen.mpr ((first s h).mono fun r s' h' => next r s' h')

theorem Preserves.bind (first : Preserves M I K z)
    (next : ∀ b, Preserves M I K (f b)) : Preserves M I K (z >>= f) :=
  fun s h => (first s h).bind (fun b s' h' => next b s' h') fun _ _ h' => h'

theorem Preserves.when (body : Preserves M I K y) : Preserves M I K (when c y) := by
  cases c with
  | true => exact body
  | false => exact Preserves.pure ()

theorem Preserves.exceptCancelled {h : Coro S σ α} (body : Preserves M I K x)
    (handler : Preserves M I K h) : Preserves M I K (x.exceptCancelled h) := by
  refine body.andThen fun r => ?_
  match r with
  | .ok a => exact fun _ h => h
  | .error .cancelled => exact handler
  | .error (.error e) => exact fun _ h => h

theorem Preserves.exceptError (body : Preserves M I K x) (handler : ∀ e, Preserves M I K (h e)) :
    Preserves M I K (x.exceptError h) := by
  refine body.andThen fun r => ?_
  match r with
  | .ok a | .error .cancelled => exact fun _ h => h
  | .error (.error e) => exact handler e

theorem Preserves.suppress (body : Preserves M I K y) : Preserves M I K (y.suppress p) := by
  refine body.andThen fun r => ?_
  cases r with
  | ok _ => exact fun _ h => h
  | error e =>
      dsimp only
      split
      · exact fun _ h => h
      · exact fun _ h => h

theorem Preserves.andFinally (body : Preserves M I K x) (last : Preserves M I K y) :
    Preserves M I K (x.andFinally y) := by
  refine body.andThen fun r => last.andThen fun r' => ?_
  cases r' with
  | ok _ | error e => exact fun _ h => h

/-- The rule for the `finally` part. -/
theorem Preserves.lastly (last : Preserves M I K y) (holds : K s) (r : S.Reply α) :
    y.wp M I (finallyThen r fun _ => K) s := by
  refine (last s holds).mono fun r' s' kept => ?_
  cases r' with
  | ok _ | error e => exact kept

theorem Preserves.forEach {f : β → Coro S σ Unit} (body : ∀ b, Preserves M I K (f b))
    (bs : List β) : Preserves M I K (forEach f bs) := by
  induction bs with
  | nil => exact Preserves.pure ()
  | cons b bs ih => exact (body b).bind fun _ => ih

theorem Preserves.and (left : Preserves M I J x) (right : Preserves M I K x) :
    Preserves M I (fun s => J s ∧ K s) x := fun s holds => (left s holds.1).and (right s holds.2)

theorem Preserves.keeps (body : Preserves M I K x) (drops : ∀ s, K s → C s) : Keeps M I C K x :=
  fun s holds => (body s holds).mono (outcomes_of drops (fun _ h => h) fun _ _ h => h)

theorem Keeps.preserves (body : Keeps M I K K x) : Preserves M I K x :=
  fun s holds => (body s holds).mono fun _ _ => outcomes_same

/-- `K` survives however the coroutine ends, and a value it returns meets `P`. -/
def Yields (M : Machine S σ) (I : S.Op → σ → Prop) (K : σ → Prop) (P : α → Prop)
    (x : Coro S σ α) : Prop :=
  ∀ s, K s → x.wp M I (fun r s' => K s' ∧ ∀ a, r = .ok a → P a) s

theorem Yields.pure {a : α} (meets : P a) : Yields M I K P (Pure.pure a) := by
  refine fun s holds => ⟨holds, fun b same => ?_⟩
  cases same
  exact meets

theorem Yields.bind (first : Yields M I K L z)
    (next : ∀ b, L b → Yields M I K P (f b)) : Yields M I K P (z >>= f) :=
  fun s holds => (first s holds).bind (fun b s' post => next b (post.2 b rfl) s' post.1)
    fun _ _ post => ⟨post.1, nofun⟩

/-- Use of a returned value by the rest of a sequence. -/
theorem Yields.then (first : Yields M I K L z)
    (next : ∀ b, L b → Preserves M I K (f b)) : Preserves M I K (z >>= f) :=
  fun s holds => (first s holds).bind (fun b s' post => next b (post.2 b rfl) s' post.1)
    fun _ _ post => post.1

theorem Yields.exceptError (body : Yields M I K P x) (handler : ∀ e, Yields M I K P (h e)) :
    Yields M I K P (x.exceptError h) :=
  fun s holds => (body s holds).exceptError (fun _ _ post => post)
    (fun _ post => ⟨post.1, nofun⟩) fun e s' post => handler e s' post.1

/-- The answers a wait can be given. -/
theorem Yields.wait (stable : M.Stable K) (assertion : ∀ op s, K s → I op s) (op : S.Op)
    {P : S.Res op → Prop} (answers : ∀ {a s s'}, M.reply op (.ok a) s = some s' → P a) :
    Yields M I K P (wait op) := by
  refine fun s holds => wp_wait.mpr ⟨assertion op s holds, fun s₁ s₂ r steps replied => ?_⟩
  refine ⟨stable.reply (stable.steps steps holds) replied, ?_⟩
  rintro a rfl
  exact answers replied

/-- `K` survives a normal end; an exception or a cancel leaves `E`. -/
def Survives (M : Machine S σ) (I : S.Op → σ → Prop) (E K : σ → Prop) (x : Coro S σ α) : Prop :=
  ∀ s, K s → x.wp M I (outcomes E E fun _ => K) s

theorem Preserves.survives (body : Preserves M I K x) (weaker : ∀ s, K s → E s) :
    Survives M I E K x :=
  fun s holds => (body s holds).mono (outcomes_of weaker weaker fun _ _ h => h)

/-- Use of a preserved assertion at the head of a sequence. -/
theorem Preserves.seq (first : Preserves M I K z) (holds : K s)
    (weaker : ∀ s, K s → E s) (next : ∀ b s, K s → (f b).wp M I (outcomes E E N) s) :
    (z >>= f).wp M I (outcomes E E N) s := wp.seq (first.survives weaker s holds) next

theorem Survives.bind (first : Survives M I E K z)
    (next : ∀ b, Survives M I E K (f b)) : Survives M I E K (z >>= f) :=
  fun s holds => (first s holds).seq fun b s' kept => next b s' kept

theorem Survives.then (first : Yields M I K L z) (weaker : ∀ s, K s → E s)
    (next : ∀ b, L b → Survives M I E K (f b)) : Survives M I E K (z >>= f) := by
  refine fun s holds => (first s holds).bind (fun b s' post => next b (post.2 b rfl) s' post.1) ?_
  rintro (_ | _) s' post
  · exact weaker s' post.1
  · exact weaker s' post.1

/-- `suppress` of a cancel that leaves the assertion as it is. -/
theorem Keeps.suppressCancelled (cancels : p .cancelled = true)
    (body : Preserves M I K y) : Keeps M I C K (y.suppress p) := by
  intro s holds
  refine (wp_suppress p y).mpr ((body s holds).mono fun r s' kept => ?_)
  match r with
  | .ok _ => exact kept
  | .error .cancelled => simpa [cancels] using kept
  | .error (.error e) =>
      dsimp only
      split
      · exact kept
      · exact kept

/-- `suppress` of everything ends normally. -/
theorem Preserves.suppressAll (body : Preserves M I K y) (catches : ∀ e, p e = true) (holds : K s) :
    (y.suppress p).wp M I (outcomes C E fun _ => K) s := by
  refine (wp_suppress p y).mpr ((body s holds).mono fun r s' kept => ?_)
  match r with
  | .ok _ => exact kept
  | .error e => simpa [catches] using kept

/-- `except CancelledError` with a handler that passes the cancel on. -/
theorem Keeps.exceptCancelled {h : Coro S σ α} (body : Keeps M I C K x)
    (handler : ∀ s, C s → h.wp M I (outcomes C K fun _ => K) s) :
    Keeps M I C K (x.exceptCancelled h) := by
  refine fun s holds => (wp_exceptCancelled x h).mpr ((body s holds).mono fun r s' post => ?_)
  match r with
  | .ok _ => exact post
  | .error .cancelled => exact handler s' post
  | .error (.error e) => exact post

/-- After a `finally` block that ends normally, the outcome of the body stands. -/
theorem finallyThen_outcomes {r : S.Reply α} (stands : ∀ s, J s → outcomes C E N r s)
    (r' : S.Reply Unit) (s : σ) (post : outcomes C E (fun _ => J) r' s) :
    finallyThen r (outcomes C E N) r' s := by
  match r' with
  | .ok _ => exact stands s post
  | .error .cancelled | .error (.error _) => exact post

/-- `finally` with a block that keeps what its body and what a cancel leave. -/
theorem wp.andFinallyKeeps (body : x.wp M I (outcomes C K fun _ => K) s) (last : Keeps M I C K y)
    (dropped : ∀ s, C s → y.wp M I (outcomes C K fun _ => C) s) :
    (x.andFinally y).wp M I (outcomes C K fun _ => K) s := by
  refine body.andFinally fun r s' post => ?_
  match r with
  | .ok _ => exact (last s' post).mono (finallyThen_outcomes fun _ h => h)
  | .error .cancelled => exact (dropped s' post).mono (finallyThen_outcomes fun _ h => h)
  | .error (.error e) => exact (last s' post).mono (finallyThen_outcomes fun _ h => h)

theorem Keeps.andFinally (body : Keeps M I C K x) (last : Keeps M I C K y)
    (dropped : ∀ s, C s → y.wp M I (outcomes C K fun _ => C) s) : Keeps M I C K (x.andFinally y) :=
  fun s holds => (body s holds).andFinallyKeeps last dropped

theorem wp_true (x : Coro S σ α) (s : σ) : x.wp M (fun _ _ => True) (fun _ _ => True) s := by
  have always : ∀ c : Susp S σ α, c.Sat M (fun _ _ => True) (fun _ _ => True) := by
    intro c
    induction c with
    | done s r => trivial
    | await s op k ih => exact ⟨trivial, fun s₁ s₂ r _ _ => ih s₂ r⟩
  exact always (x s)

/-- `finally` when only a normal end matters. -/
theorem wp.andFinallyOk
    (body : x.wp M (fun _ _ => True) (outcomes (fun _ => True) (fun _ => True) fun _ => J) s)
    (last : ∀ s, J s →
      y.wp M (fun _ _ => True) (outcomes (fun _ => True) (fun _ => True) fun _ => K) s) :
    (x.andFinally y).wp M (fun _ _ => True)
      (outcomes (fun _ => True) (fun _ => True) fun _ => K) s := by
  refine body.andFinally fun r s' post => ?_
  match r with
  | .ok _ => exact (last s' post).mono (finallyThen_outcomes fun _ h => h)
  | .error .cancelled | .error (.error _) =>
      refine (wp_true y s').mono fun r' s'' _ => ?_
      match r' with
      | .ok _ | .error .cancelled | .error (.error _) => trivial

/-- The coroutine never ends with an exception of its own. -/
def Unfailing (M : Machine S σ) (x : Coro S σ α) : Prop :=
  ∀ s, x.wp M (fun _ _ => True) (fun r _ => ∀ e, r ≠ .error (.error e)) s

theorem Unfailing.pure (a : α) : Unfailing M (Pure.pure a : Coro S σ α) := fun _ _ => nofun

theorem Unfailing.read (f : σ → α) : Unfailing M (read f : Coro S σ α) := fun _ _ => nofun

theorem Unfailing.update (f : σ → σ) : Unfailing M (update f : Coro S σ Unit) := fun _ _ => nofun

theorem Unfailing.act (f : σ → α × σ) : Unfailing M (act f : Coro S σ α) := fun _ _ => nofun

theorem Unfailing.wait {op : S.Op}
    (never : ∀ {e s s'}, M.reply op (.error (.error e)) s ≠ some s') :
    Unfailing M (wait op : Coro S σ _) := by
  intro s
  refine wp_wait.mpr ⟨trivial, ?_⟩
  rintro s₁ s₂ r _ replied e rfl
  exact never replied

theorem Unfailing.bind (first : Unfailing M z) (next : ∀ b, Unfailing M (f b)) :
    Unfailing M (z >>= f) :=
  fun s => (first s).bind (fun b s' _ => next b s') fun e s' h e' same =>
    h e' (by rw [Except.error.inj same])

theorem Unfailing.when (body : Unfailing M y) : Unfailing M (when c y) := by
  cases c with
  | true => exact body
  | false => exact Unfailing.pure ()

theorem Unfailing.exceptError (handler : ∀ e, Unfailing M (h e)) : Unfailing M (x.exceptError h) :=
  fun s => (wp_true x s).exceptError (fun _ _ _ _ => nofun) (fun _ _ _ => nofun)
    (fun e s' _ => handler e s')

theorem Unfailing.andFinally (body : Unfailing M x) (last : Unfailing M y) :
    Unfailing M (x.andFinally y) := by
  refine fun s => (body s).andFinally fun r s' h => (last s').mono fun r' s'' h' => ?_
  cases r' with
  | ok _ => exact h
  | error e => exact fun e' same => h' e' (by rw [Except.error.inj same])

/-- What `suppress` catches every exception of. -/
theorem Unfailing.suppressed (catches : ∀ e, p (.error e) = true) : Unfailing M (y.suppress p) := by
  refine fun s => (wp_suppress p y).mpr ((wp_true y s).mono fun r s' _ => ?_)
  match r with
  | .ok _ => exact fun _ => nofun
  | .error (.error e) => simp [catches]
  | .error .cancelled =>
      dsimp only
      split
      · exact fun _ => nofun
      · exact fun _ => nofun

theorem Unfailing.suppress (body : Unfailing M y) : Unfailing M (y.suppress p) := by
  refine fun s => (wp_suppress p y).mpr ((body s).mono fun r s' h => ?_)
  match r with
  | .ok _ => exact fun _ => nofun
  | .error (.error e) => exact absurd rfl (h e)
  | .error .cancelled =>
      dsimp only
      split
      · exact fun _ => nofun
      · exact fun _ => nofun

/-- A kept assertion of a coroutine that never fails. -/
theorem Keeps.unfailing (body : Keeps M I C K x) (never : Unfailing M x) (holds : K s) :
    x.wp M I (outcomes C E fun _ => K) s := by
  refine ((body s holds).and (never s)).mono fun r s' post => ?_
  match r with
  | .ok _ | .error .cancelled => exact post.1
  | .error (.error e) => exact absurd rfl (post.2 e)

theorem Unfailing.forEach {f : β → Coro S σ Unit} (body : ∀ b, Unfailing M (f b))
    (bs : List β) : Unfailing M (forEach f bs) := by
  induction bs with
  | nil => exact Unfailing.pure ()
  | cons b bs ih => exact (body b).bind fun _ => ih

end Coro
end Asyncio
