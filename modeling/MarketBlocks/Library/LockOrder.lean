import MarketBlocks.Library.Runs
import Mathlib.Data.Fintype.Sets
import Mathlib.Order.Preorder.Finite

/-!
# Threads that take locks

A program of a thread takes and gives back locks, shared or exclusively, and between that reads and
changes data that all threads have in common. A machine runs one program in every thread, step by
step in any interleaving, and a thread without one may be given the program of any call.

When each program takes its locks in the order of their ranks, a machine does not deadlock. Whether
a program does may depend on the data, provided that the change of the data by other threads keeps
to a relation that all programs guarantee.
-/

namespace MarketBlocks.Library

/-- How a lock is held. -/
inductive LockMode where
  | shared
  | exclusive
  deriving DecidableEq, Repr

/-- Two holds of one lock that exclude each other. -/
def LockMode.Excludes (mode other : LockMode) : Prop := mode = .exclusive ∨ other = .exclusive

instance (mode other : LockMode) : Decidable (mode.Excludes other) :=
  inferInstanceAs (Decidable (_ ∨ _))

/-- A program of one thread. -/
inductive Program (Lock Data α : Type) where
  | done (result : α)
  | acquire (lock : Lock) (mode : LockMode) (next : Program Lock Data α)
  | release (lock : Lock) (next : Program Lock Data α)
  /-- Change the data and go on with what was read before. -/
  | perform (effect : Data → Data) (next : Data → Program Lock Data α)

namespace Program

variable {Lock Data ε α β ι Call : Type}

/-- Programs one after the other. -/
def bind : Program Lock Data α → (α → Program Lock Data β) → Program Lock Data β
  | .done result, next => next result
  | .acquire lock mode rest, next => .acquire lock mode (rest.bind next)
  | .release lock rest, next => .release lock (rest.bind next)
  | .perform effect rest, next => .perform effect fun data => (rest data).bind next

instance : Monad (Program Lock Data) where
  pure := .done
  bind := .bind

/-- The lock that a program is about to take. -/
def request : Program Lock Data α → Option (Lock × LockMode)
  | .acquire lock mode _ => some (lock, mode)
  | .done _ | .release _ _ | .perform _ _ => none

/-! ## Calls that may throw -/

/-- Read the data and change it, in one step. -/
def access (f : Data → Except ε α × Data) : ExceptT ε (Program Lock Data) α :=
  .mk (.perform (fun data => (f data).2) fun data => .done (f data).1)

/-- Run a call with a lock, which is given back even when the call throws. -/
def withLock (lock : Lock) (mode : LockMode) (body : ExceptT ε (Program Lock Data) α) :
    ExceptT ε (Program Lock Data) α :=
  .mk (.acquire lock mode (body.run.bind fun result => .release lock (.done result)))

/-- What a thread runs for a call: nobody is there to be told its result. -/
def ofCall (call : ExceptT ε (Program Lock Data) α) : Program Lock Data Unit :=
  call.run.bind fun _ => .done ()

/-! ## A thread that is alone -/

/-- What a program makes of the data when the locks are left out. -/
def eval : Program Lock Data α → Data → α × Data
  | .done result, data => (result, data)
  | .acquire _ _ next, data => next.eval data
  | .release _ next, data => next.eval data
  | .perform effect next, data => (next data).eval (effect data)

/-- The second program finds what the first one has left. -/
theorem eval_bind (program : Program Lock Data α) (next : α → Program Lock Data β) (data : Data) :
    (program.bind next).eval data = (next (program.eval data).1).eval (program.eval data).2 := by
  induction program generalizing data with
  | done result => rfl
  | acquire lock mode rest ih => exact ih data
  | release lock rest ih => exact ih data
  | perform effect rest ih => exact ih data (effect data)

/-- What a call makes of the data when no other thread comes between its steps. -/
def alone (call : ExceptT ε (Program Lock Data) α) (data : Data) : Except ε α × Data :=
  call.run.eval data

variable (data : Data)

/-- The result of a call is dropped, and what it has done is kept. -/
theorem eval_ofCall (call : ExceptT ε (Program Lock Data) α) :
    ((ofCall call).eval data).2 = (alone call data).2 := by
  rw [ofCall, eval_bind]
  rfl

/-- A value changes nothing. -/
@[simp] theorem alone_pure (result : α) :
    alone (pure result : ExceptT ε (Program Lock Data) α) data = (.ok result, data) := rfl

/-- An access does what its function does. -/
@[simp] theorem alone_access (f : Data → Except ε α × Data) :
    alone (access f : ExceptT ε (Program Lock Data) α) data = f data := rfl

/-- A lock makes no difference. -/
@[simp] theorem alone_withLock (lock : Lock) (mode : LockMode)
    (body : ExceptT ε (Program Lock Data) α) : alone (withLock lock mode body) data = alone body data :=
  eval_bind body.run (fun result => .release lock (.done result)) data

/-- The second call is made unless the first one throws. -/
theorem alone_bind (call : ExceptT ε (Program Lock Data) α)
    (next : α → ExceptT ε (Program Lock Data) β) :
    alone (call >>= next) data = match alone call data with
      | (.error fault, data') => (.error fault, data')
      | (.ok result, data') => alone (next result) data' := by
  refine (eval_bind call.run _ data).trans ?_
  unfold alone
  rcases call.run.eval data with ⟨fault | result, data'⟩ <;> rfl

end Program

/-! ## Machines -/

section Machines

variable (ι Lock Data : Type)

/-- The locks that a thread holds, and what it has left to do. -/
structure Thread where
  held : List (Lock × LockMode)
  program : Program Lock Data Unit

/-- The data that all threads share, and the threads. -/
structure Machine where
  data : Data
  threads : ι → Thread Lock Data

end Machines

namespace Machine

variable {ι Lock Data Call : Type}

/-- A thread waits for another one, or for itself. -/
def WaitsFor (s : Machine ι Lock Data) (i j : ι) : Prop :=
  ∃ lock mode, (s.threads i).program.request = some (lock, mode) ∧
    ∃ mode', (lock, mode') ∈ (s.threads j).held ∧ mode.Excludes mode'

/-- There are threads that all wait for one another. -/
def Deadlocked (s : Machine ι Lock Data) : Prop :=
  ∃ threads : Set ι, threads.Nonempty ∧ ∀ i ∈ threads, ∃ j ∈ threads, s.WaitsFor i j

/-- When every thread that is about to take a lock holds only locks of lower ranks, no threads wait
for one another: the one that waits for the highest lock waits for one that is not waiting. -/
theorem not_deadlocked_of_ordered [Fintype ι] (rank : Lock → ℕ) {s : Machine ι Lock Data}
    (hordered : ∀ i lock mode, (s.threads i).program.request = some (lock, mode) →
      ∀ hold ∈ (s.threads i).held, rank hold.1 < rank lock) : ¬s.Deadlocked := by
  rintro ⟨threads, hnonempty, hwaits⟩
  have hrequest : ∀ i ∈ threads, ∃ lock mode, (s.threads i).program.request = some (lock, mode) := by
    intro i hi
    obtain ⟨j, -, lock, mode, hrequest, -⟩ := hwaits i hi
    exact ⟨lock, mode, hrequest⟩
  let height (i : ι) : ℕ := ((s.threads i).program.request.map fun hold => rank hold.1).getD 0
  obtain ⟨i, hi, hhighest⟩ := threads.toFinite.exists_maximalFor height threads hnonempty
  obtain ⟨j, hj, lock, mode, hwaited, mode', hheld, -⟩ := hwaits i hi
  obtain ⟨lock', mode'', hwaited'⟩ := hrequest j hj
  have hlower : rank lock < rank lock' := hordered j lock' mode'' hwaited' (lock, mode') hheld
  have hle : height j ≤ height i := by
    rcases le_total (height j) (height i) with hle | hle
    · exact hle
    · exact hhighest hj hle
  simp only [height, hwaited, hwaited', Option.map_some, Option.getD_some] at hle
  omega

/-- All threads are idle. -/
def start (data : Data) : Machine ι Lock Data where
  data := data
  threads := fun _ => ⟨[], .done ()⟩

variable [DecidableEq ι]

/-- The machine with another state of one thread. -/
def setThread (s : Machine ι Lock Data) (i : ι) (thread : Thread Lock Data) :
    Machine ι Lock Data :=
  { s with threads := Function.update s.threads i thread }

/-- A new state of a thread leaves the data unchanged. -/
@[simp] theorem setThread_data (s : Machine ι Lock Data) (i : ι) (thread : Thread Lock Data) :
    (s.setThread i thread).data = s.data := rfl

/-- The thread has its new state. -/
@[simp] theorem setThread_threads_self (s : Machine ι Lock Data) (i : ι)
    (thread : Thread Lock Data) : (s.setThread i thread).threads i = thread := by
  simp [setThread]

/-- The last of two new states counts. -/
@[simp] theorem setThread_setThread (s : Machine ι Lock Data) (i : ι)
    (thread thread' : Thread Lock Data) :
    (s.setThread i thread).setThread i thread' = s.setThread i thread' := by
  simp [setThread]

/-- The other threads have theirs. -/
theorem setThread_threads_of_ne (s : Machine ι Lock Data) {i j : ι} (hne : j ≠ i)
    (thread : Thread Lock Data) : (s.setThread i thread).threads j = s.threads j := by
  simp [setThread, hne]

variable [Fintype ι] [DecidableEq Lock]

/-- No thread holds the lock in a way that keeps it from being taken. -/
def Free (s : Machine ι Lock Data) (lock : Lock) (mode : LockMode) : Prop :=
  ∀ j, ∀ hold ∈ (s.threads j).held, hold.1 = lock → ¬mode.Excludes hold.2

instance (s : Machine ι Lock Data) (lock : Lock) (mode : LockMode) :
    Decidable (s.Free lock mode) :=
  inferInstanceAs (Decidable (∀ _, _))

/-- One step of one thread. A lock that is not free is waited for. -/
def advance (s : Machine ι Lock Data) (i : ι) : Machine ι Lock Data :=
  match (s.threads i).program with
  | .done _ => s
  | .acquire lock mode next =>
    if s.Free lock mode then s.setThread i ⟨(lock, mode) :: (s.threads i).held, next⟩ else s
  | .release lock next =>
    s.setThread i ⟨(s.threads i).held.eraseP fun hold => hold.1 = lock, next⟩
  | .perform effect next =>
    { s with data := effect s.data }.setThread i ⟨(s.threads i).held, next s.data⟩

/-- An idle thread is given a call; one that is not idle goes on with its own. -/
def call (program : Call → Program Lock Data Unit) (s : Machine ι Lock Data) (i : ι)
    (call : Call) : Machine ι Lock Data :=
  match (s.threads i).program with
  | .done _ => s.setThread i ⟨(s.threads i).held, program call⟩
  | _ => s

/-- A thread is given a call, or takes a step. -/
inductive Event (ι Call : Type) where
  | call (i : ι) (call : Call)
  | advance (i : ι)

/-- What an event does, given the program of each call. -/
def step (program : Call → Program Lock Data Unit) (s : Machine ι Lock Data) :
    Event ι Call → Machine ι Lock Data
  | .call i call => s.call program i call
  | .advance i => s.advance i

end Machine

/-! ## Programs in order -/

section Order

variable {ι Lock Data Call ε α β : Type} [DecidableEq Lock]
variable (rank : Lock → ℕ) (Grows : Data → Data → Prop)

/-- From the data on, a program takes each lock above those that it holds and guarantees that the
data only grow, whatever growth there is in between, and what it ends with satisfies `Q`. -/
def Program.Ordered : Program Lock Data α → Data → List (Lock × LockMode) →
    (Data → List (Lock × LockMode) → α → Prop) → Prop
  | .done result, data, held, Q => Q data held result
  | .acquire lock mode next, data, held, Q =>
    (∀ hold ∈ held, rank hold.1 < rank lock) ∧ next.Ordered data ((lock, mode) :: held) Q
  | .release lock next, data, held, Q =>
    next.Ordered data (held.eraseP fun hold => hold.1 = lock) Q
  | .perform effect next, data, held, Q => ∀ data', Grows data data' →
    Grows data' (effect data') ∧ (next data').Ordered (effect data') held Q

/-- A growth that goes on for no, one or two steps. -/
structure Growth : Prop where
  refl : ∀ data, Grows data data
  trans : ∀ data data' data'', Grows data data' → Grows data' data'' → Grows data data''

variable {rank Grows}

namespace Program

/-- A program that is in order stays so while the data grow. -/
theorem Ordered.mono (hgrowth : Growth Grows) {program : Program Lock Data α}
    {data data' : Data} {held : List (Lock × LockMode)}
    {Q : Data → List (Lock × LockMode) → α → Prop}
    (hQ : ∀ data data' held result, Grows data data' → Q data held result → Q data' held result)
    (h : program.Ordered rank Grows data held Q) (hgrows : Grows data data') :
    program.Ordered rank Grows data' held Q := by
  induction program generalizing held with
  | done result => exact hQ data data' held result hgrows h
  | acquire lock mode next ih => exact ⟨h.1, ih h.2⟩
  | release lock next ih => exact ih h
  | perform effect next ih =>
    exact fun data'' hgrows' => h data'' (hgrowth.trans _ _ _ hgrows hgrows')

/-- What a program that is in order ends with has grown. -/
theorem Ordered.imp (hgrowth : Growth Grows) {program : Program Lock Data α} {data : Data}
    {held : List (Lock × LockMode)} {Q R : Data → List (Lock × LockMode) → α → Prop}
    (h : program.Ordered rank Grows data held Q)
    (hQ : ∀ data' held result, Grows data data' → Q data' held result → R data' held result) :
    program.Ordered rank Grows data held R := by
  induction program generalizing data held with
  | done result => exact hQ data held result (hgrowth.refl data) h
  | acquire lock mode next ih => exact ⟨h.1, ih h.2 hQ⟩
  | release lock next ih => exact ih h hQ
  | perform effect next ih =>
    intro data' hgrows
    obtain ⟨hguarantee, hnext⟩ := h data' hgrows
    refine ⟨hguarantee, ih data' hnext fun data'' held result hgrows' hresult => ?_⟩
    exact hQ data'' held result
      (hgrowth.trans _ _ _ hgrows (hgrowth.trans _ _ _ hguarantee hgrows')) hresult

/-- Programs in order, one after the other. -/
theorem Ordered.bind {program : Program Lock Data α} {next : α → Program Lock Data β}
    {data : Data} {held : List (Lock × LockMode)} {Q : Data → List (Lock × LockMode) → α → Prop}
    {R : Data → List (Lock × LockMode) → β → Prop} (h : program.Ordered rank Grows data held Q)
    (hnext : ∀ data' held result, Q data' held result →
      (next result).Ordered rank Grows data' held R) :
    (program.bind next).Ordered rank Grows data held R := by
  induction program generalizing data held with
  | done result => exact hnext data held result h
  | acquire lock mode rest ih => exact ⟨h.1, ih h.2⟩
  | release lock rest ih => exact ih h
  | perform effect rest ih =>
    intro data' hgrows
    obtain ⟨hguarantee, hrest⟩ := h data' hgrows
    exact ⟨hguarantee, ih data' hrest⟩

/-- A call that is in order, holds at its end what it held at its beginning, and satisfies `Q` there,
whether it returns or throws. -/
def Keeps (rank : Lock → ℕ) (Grows : Data → Data → Prop) (call : ExceptT ε (Program Lock Data) α)
    (data : Data) (held : List (Lock × LockMode)) (Q : Data → Except ε α → Prop) : Prop :=
  call.run.Ordered rank Grows data held fun data' held' result => held' = held ∧ Q data' result

variable {data : Data} {held : List (Lock × LockMode)}

/-- A value keeps everything. -/
theorem keeps_pure {Q : Data → Except ε α → Prop} {result : α} (hQ : Q data (.ok result)) :
    Keeps rank Grows (pure result : ExceptT ε (Program Lock Data) α) data held Q :=
  ⟨rfl, hQ⟩

/-- An access whose function lets the data grow. -/
theorem keeps_access {Q : Data → Except ε α → Prop} {f : Data → Except ε α × Data}
    (hgrows : ∀ data', Grows data data' → Grows data' (f data').2)
    (hQ : ∀ data', Grows data data' → Q (f data').2 (f data').1) :
    Keeps rank Grows (access f : ExceptT ε (Program Lock Data) α) data held Q :=
  fun data' hgrows' => ⟨hgrows data' hgrows', rfl, hQ data' hgrows'⟩

/-- The second call has to keep to the order from wherever the first one returns. -/
theorem keeps_bind (hgrowth : Growth Grows) {call : ExceptT ε (Program Lock Data) α}
    {next : α → ExceptT ε (Program Lock Data) β} {Q : Data → Except ε α → Prop}
    {R : Data → Except ε β → Prop} (h : Keeps rank Grows call data held Q)
    (hnext : ∀ data' result, Grows data data' → Q data' (.ok result) →
      Keeps rank Grows (next result) data' held R)
    (hthrow : ∀ data' fault, Q data' (.error fault) → R data' (.error fault)) :
    Keeps rank Grows (call >>= next) data held R := by
  refine (h.imp hgrowth fun data' held' result hgrows hresult =>
    (⟨hgrows, hresult⟩ : Grows data data' ∧ held' = held ∧ Q data' result)).bind ?_
  rintro data' held' (fault | result) ⟨hgrows, rfl, hQ⟩
  · exact ⟨rfl, hthrow data' fault hQ⟩
  · exact hnext data' result hgrows hQ

/-- A lock may be taken above those that are held. -/
theorem keeps_withLock {lock : Lock} {mode : LockMode} {body : ExceptT ε (Program Lock Data) α}
    {Q : Data → Except ε α → Prop} (habove : ∀ hold ∈ held, rank hold.1 < rank lock)
    (hbody : Keeps rank Grows body data ((lock, mode) :: held) Q) :
    Keeps rank Grows (withLock lock mode body) data held Q := by
  refine ⟨habove, hbody.bind ?_⟩
  rintro data' held' result ⟨rfl, hQ⟩
  exact ⟨by simp, hQ⟩

/-- A call on its own is in order for a thread without locks. -/
theorem ordered_ofCall {call : ExceptT ε (Program Lock Data) α}
    (h : Keeps rank Grows call data [] fun _ _ => True) :
    (ofCall call).Ordered rank Grows data [] fun _ held' _ => held' = [] :=
  h.bind fun _ _ _ hresult => hresult.1

end Program

namespace Machine

/-- Every thread runs its program in order, and gives back all locks at its end. -/
def InOrder (rank : Lock → ℕ) (Grows : Data → Data → Prop) (s : Machine ι Lock Data) : Prop :=
  ∀ i, (s.threads i).program.Ordered rank Grows s.data (s.threads i).held
    fun _ held _ => held = []

/-- Idle threads are in order. -/
theorem inOrder_start (data : Data) : (start data : Machine ι Lock Data).InOrder rank Grows :=
  fun _ => rfl

/-- A machine in order is not deadlocked. -/
theorem InOrder.not_deadlocked [Fintype ι] {s : Machine ι Lock Data}
    (h : s.InOrder rank Grows) : ¬s.Deadlocked := by
  refine not_deadlocked_of_ordered rank fun i lock mode hrequest => ?_
  have hthread := h i
  cases hprogram : (s.threads i).program with
  | acquire lock' mode' next =>
    rw [hprogram] at hrequest hthread
    cases hrequest
    exact hthread.1
  | done | release | perform =>
    rw [hprogram] at hrequest
    cases hrequest

variable [DecidableEq ι]

/-- A new thread in order, and the others unchanged while the data have grown. -/
theorem InOrder.setThread (hgrowth : Growth Grows) {s : Machine ι Lock Data}
    (h : s.InOrder rank Grows) {data : Data} (hgrows : Grows s.data data) {i : ι}
    {thread : Thread Lock Data}
    (hthread : thread.program.Ordered rank Grows data thread.held fun _ held _ => held = []) :
    ({ s with data := data }.setThread i thread).InOrder rank Grows := by
  intro j
  by_cases hj : j = i
  · subst hj
    simpa [setThread] using hthread
  · have hother := (h j).mono hgrowth (fun _ _ _ _ _ hempty => hempty) hgrows
    rw [setThread_threads_of_ne _ hj]
    exact hother

/-- An idle thread holds nothing, so it may be given every call that is in order on its own. -/
theorem InOrder.call (hgrowth : Growth Grows) {program : Call → Program Lock Data Unit}
    {s : Machine ι Lock Data} (h : s.InOrder rank Grows) (i : ι) {call : Call}
    (hcall : (program call).Ordered rank Grows s.data [] fun _ held _ => held = []) :
    (s.call program i call).InOrder rank Grows := by
  have hthread := h i
  unfold Machine.call
  cases hprogram : (s.threads i).program with
  | done =>
    rw [hprogram] at hthread
    have hheld : (s.threads i).held = [] := hthread
    rw [hheld]
    exact h.setThread hgrowth (hgrowth.refl s.data) hcall
  | acquire | release | perform => exact h

variable [Fintype ι]

/-- A step of a thread keeps the machine in order. -/
theorem InOrder.advance (hgrowth : Growth Grows) {s : Machine ι Lock Data}
    (h : s.InOrder rank Grows) (i : ι) : (s.advance i).InOrder rank Grows := by
  have hthread := h i
  unfold Machine.advance
  cases hprogram : (s.threads i).program with
  | done => exact h
  | acquire lock mode next =>
    rw [hprogram] at hthread
    simp only
    split
    · exact h.setThread hgrowth (hgrowth.refl s.data) hthread.2
    · exact h
  | release lock next =>
    rw [hprogram] at hthread
    exact h.setThread hgrowth (hgrowth.refl s.data) hthread
  | perform effect next =>
    rw [hprogram] at hthread
    obtain ⟨hguarantee, hnext⟩ := hthread s.data (hgrowth.refl s.data)
    exact h.setThread hgrowth hguarantee hnext

/-- In a run whose calls are in order from the data on that they find, no state is a deadlock. -/
theorem foldl_not_deadlocked (hgrowth : Growth Grows) {program : Call → Program Lock Data Unit}
    {data : Data} {events : List (Event ι Call)}
    (hrun : EveryStep (step program) (fun s event => ∀ i call, event = .call i call →
      (program call).Ordered rank Grows s.data [] fun _ held _ => held = []) (start data) events) :
    ¬(events.foldl (step program) (start data)).Deadlocked := by
  suffices h : (events.foldl (step program) (start data)).InOrder rank Grows from h.not_deadlocked
  refine hrun.invariant (fun s event h hcall => ?_) (inOrder_start data)
  cases event with
  | call i call => exact h.call hgrowth i (hcall i call rfl)
  | advance i => exact h.advance hgrowth i

/-- A program in order waits for nothing in a thread whose others hold no locks. It ends when that
thread goes on, and leaves of the data what it leaves of them without the locks. -/
theorem exists_advance_eq_eval (hgrowth : Growth Grows) (program : Call → Program Lock Data Unit)
    {s : Machine ι Lock Data} {i : ι} (hother : ∀ j, j ≠ i → (s.threads j).held = [])
    {rest : Program Lock Data Unit} {data : Data} {held : List (Lock × LockMode)}
    (h : rest.Ordered rank Grows data held fun _ held _ => held = []) :
    ∃ steps, (List.replicate steps (Event.advance i)).foldl (step program)
        ({ s with data := data }.setThread i ⟨held, rest⟩) =
      { s with data := (rest.eval data).2 }.setThread i ⟨[], .done ()⟩ := by
  have hfirst {data data' : Data} {thread thread' : Thread Lock Data} {target : Machine ι Lock Data}
      (hadvance : ({ s with data := data }.setThread i thread).advance i =
        { s with data := data' }.setThread i thread')
      (ih : ∃ steps, (List.replicate steps (Event.advance i)).foldl (step program)
        ({ s with data := data' }.setThread i thread') = target) :
      ∃ steps, (List.replicate steps (Event.advance i)).foldl (step program)
        ({ s with data := data }.setThread i thread) = target := by
    obtain ⟨steps, hsteps⟩ := ih
    refine ⟨steps + 1, ?_⟩
    rw [List.replicate_succ, List.foldl_cons, step, hadvance, hsteps]
  induction rest generalizing data held with
  | done result =>
    have hheld : held = [] := h
    exact ⟨0, by rw [hheld]; rfl⟩
  | acquire lock mode next ih =>
    refine hfirst ?_ (ih h.2)
    have hfree : ({ s with data := data }.setThread i ⟨held, .acquire lock mode next⟩).Free
        lock mode := by
      intro j hold hhold hlock
      by_cases hj : j = i
      · subst hj
        rw [setThread_threads_self] at hhold
        have hlower := h.1 hold hhold
        rw [hlock] at hlower
        omega
      · rw [setThread_threads_of_ne _ hj] at hhold
        rw [hother j hj] at hhold
        cases hhold
    simp only [advance, setThread_threads_self, if_pos hfree, setThread_setThread]
  | release lock next ih => exact hfirst (by simp [advance, setThread]) (ih h)
  | perform effect next ih =>
    exact hfirst (by simp [advance, setThread]) (ih data (h data (hgrowth.refl data)).2)

/-- No thread holds a lock, and none has anything to do. -/
def Idle (s : Machine ι Lock Data) : Prop := ∀ i, s.threads i = ⟨[], .done ()⟩

/-- A call that an idle machine is given, and nothing else, ends and leaves the machine idle. -/
theorem exists_call_eq_eval (hgrowth : Growth Grows) (program : Call → Program Lock Data Unit)
    {s : Machine ι Lock Data} (hidle : s.Idle) (i : ι) {call : Call}
    (h : (program call).Ordered rank Grows s.data [] fun _ held _ => held = []) :
    ∃ steps, (.call i call :: List.replicate steps (Event.advance i)).foldl (step program) s =
      { s with data := ((program call).eval s.data).2 } := by
  have hother : ∀ j, j ≠ i → (s.threads j).held = [] := fun j _ => by rw [hidle j]
  obtain ⟨steps, hsteps⟩ := exists_advance_eq_eval hgrowth program hother h
  have hcall : step program s (.call i call) = s.setThread i ⟨[], program call⟩ := by
    simp [step, Machine.call, hidle i]
  refine ⟨steps, ?_⟩
  rw [List.foldl_cons, hcall, hsteps, setThread]
  congr 1
  rw [← hidle i, Function.update_eq_self]

end Machine

end Order

end MarketBlocks.Library
