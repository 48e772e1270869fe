import Mathlib.Data.List.Basic

/-!
# Programs and their surroundings

A program asks requests of its surroundings, which reply as they like, and ends with a
value or an error. `Program.Returns p log result`: the program can end with the result
after the exchanges of the log. A program that has not ended is `running`; a loop of any
length is cut there after a number of turns.

`Program.Holds p past post` is what a proof runs: wherever the program ends, its result and
the exchanges before and during it satisfy `post` (`holds_iff`). It is computed along the
program, and through sequences and loops by `holds_bind` and `holds_loop`.
`Program.Asks p allowed`: the program asks nothing else.
-/

namespace Effects

variable {Request : Type} {Reply : Request → Type} {ε α β : Type}

/-- A request with its reply. -/
abbrev Exchange (Reply : Request → Type) := Σ request, Reply request

/-- A program that ends with an `α` or an error. -/
inductive Program (Reply : Request → Type) (ε α : Type) where
  | done (result : Except ε α)
  | ask (request : Request) (next : Reply request → Program Reply ε α)
  | running

namespace Program

protected def bind : Program Reply ε α → (α → Program Reply ε β) → Program Reply ε β
  | .done (.ok a), k => k a
  | .done (.error e), _ => .done (.error e)
  | .ask request next, k => .ask request fun reply => (next reply).bind k
  | .running, _ => .running

instance : Monad (Program Reply ε) where
  pure a := .done (.ok a)
  bind := Program.bind

/-- One exchange. -/
def request (request : Request) : Program Reply ε (Reply request) :=
  .ask request fun reply => .done (.ok reply)

def throw (e : ε) : Program Reply ε α := .done (.error e)

/-- A computation that asks nothing. -/
def lift (result : Except ε α) : Program Reply ε α := .done result

/-- Turns of a loop until one of them gives a value. -/
def loop (turn : Program Reply ε (Option α)) : ℕ → Program Reply ε α
  | 0 => .running
  | turns + 1 => do
    match ← turn with
    | some a => pure a
    | none => loop turn turns

/-- The program with its errors turned into values. -/
def attempt {δ : Type} : Program Reply ε α → Program Reply δ (Except ε α)
  | .done result => .done (.ok result)
  | .ask request next => .ask request fun reply => (next reply).attempt
  | .running => .running

/-- The program can end with the result after the exchanges. -/
inductive Returns : Program Reply ε α → List (Exchange Reply) → Except ε α → Prop where
  | done (result : Except ε α) : Returns (.done result) [] result
  | ask {request : Request} {next : Reply request → Program Reply ε α} {reply : Reply request}
      {log : List (Exchange Reply)} {result : Except ε α} (h : Returns (next reply) log result) :
      Returns (.ask request next) (⟨request, reply⟩ :: log) result

/-- Wherever the program ends, the result and the log satisfy `post`. -/
def Holds : Program Reply ε α → List (Exchange Reply) →
    (Except ε α → List (Exchange Reply) → Prop) → Prop
  | .done result, past, post => post result past
  | .ask request next, past, post =>
    ∀ reply, (next reply).Holds (past ++ [⟨request, reply⟩]) post
  | .running, _, _ => True

/-- The program asks only what is allowed. -/
def Asks (allowed : Request → Prop) : Program Reply ε α → Prop
  | .done _ => True
  | .ask request next => allowed request ∧ ∀ reply, (next reply).Asks allowed
  | .running => True

variable {past log : List (Exchange Reply)} {result : Except ε α}
  {post : Except ε α → List (Exchange Reply) → Prop} {allowed : Request → Prop}

/-- **What a proof about a program says.** -/
theorem holds_iff {p : Program Reply ε α} :
    p.Holds past post ↔ ∀ log result, p.Returns log result → post result (past ++ log) := by
  induction p generalizing past with
  | done result =>
    refine ⟨fun h log r hr => ?_, fun h => ?_⟩
    · cases hr
      rwa [List.append_nil]
    · have hpost := h [] result (.done result)
      rwa [List.append_nil] at hpost
  | ask request next ih =>
    refine ⟨fun h log r hr => ?_, fun h reply => (ih reply).mpr fun log r hr => ?_⟩
    · cases hr with
      | ask hr =>
        have hpost := (ih _).mp (h _) _ _ hr
        rwa [List.append_assoc] at hpost
    · have hpost := h _ _ (.ask hr)
      rwa [List.append_assoc]
  | running => exact ⟨fun _ log r hr => (nomatch hr), fun _ => trivial⟩

theorem Holds.imp {post' : Except ε α → List (Exchange Reply) → Prop} {p : Program Reply ε α}
    (h : p.Holds past post) (hpost : ∀ r log, post r log → post' r log) : p.Holds past post' :=
  holds_iff.mpr fun log r hr => hpost r _ (holds_iff.mp h log r hr)

/-! ### The rules -/

@[simp] theorem holds_pure {a : α} :
    (pure a : Program Reply ε α).Holds past post ↔ post (.ok a) past := Iff.rfl

@[simp] theorem holds_throw {e : ε} :
    (throw e : Program Reply ε α).Holds past post ↔ post (.error e) past := Iff.rfl

@[simp] theorem holds_lift {x : Except ε α} :
    (lift x : Program Reply ε α).Holds past post ↔ post x past := Iff.rfl

/-- What comes after a step: the rest of the program, or its error. -/
def after (k : α → Program Reply ε β) (post : Except ε β → List (Exchange Reply) → Prop) :
    Except ε α → List (Exchange Reply) → Prop
  | .ok a, log => (k a).Holds log post
  | .error e, log => post (.error e) log

theorem holds_bind {p : Program Reply ε α} {k : α → Program Reply ε β}
    {post : Except ε β → List (Exchange Reply) → Prop} :
    (p >>= k).Holds past post ↔ p.Holds past (after k post) := by
  induction p generalizing past with
  | done result => cases result <;> exact Iff.rfl
  | ask request next ih => exact forall_congr' fun reply => ih reply
  | running => exact Iff.rfl

@[simp] theorem holds_request_bind {q : Request} {k : Reply q → Program Reply ε β}
    {post : Except ε β → List (Exchange Reply) → Prop} :
    ((request q : Program Reply ε (Reply q)) >>= k).Holds past post ↔
      ∀ reply, (k reply).Holds (past ++ [⟨q, reply⟩]) post := Iff.rfl

theorem holds_attempt {δ : Type} {p : Program Reply ε α}
    {post : Except δ (Except ε α) → List (Exchange Reply) → Prop} :
    (p.attempt : Program Reply δ (Except ε α)).Holds past post ↔
      p.Holds past fun r log => post (.ok r) log := by
  induction p generalizing past with
  | done result => exact Iff.rfl
  | ask request next ih => exact forall_congr' fun reply => ih reply
  | running => exact Iff.rfl

/-- A loop whose turns keep an invariant until one gives a value. -/
theorem holds_loop {turn : Program Reply ε (Option α)} {inv : List (Exchange Reply) → Prop}
    (hturn : ∀ past, inv past → turn.Holds past fun r log => match r with
      | .ok (some a) => post (.ok a) log
      | .ok none => inv log
      | .error e => post (.error e) log)
    (h : inv past) (turns : ℕ) : (loop turn turns).Holds past post := by
  induction turns generalizing past with
  | zero => exact trivial
  | succ turns ih =>
    refine holds_bind.mpr ((hturn past h).imp fun r log hr => ?_)
    cases r with
    | error e => exact hr
    | ok next =>
      cases next with
      | none => exact ih hr
      | some a => exact hr

/-! ### What a program asks -/

theorem request_asks {q : Request} (h : allowed q) :
    (request q : Program Reply ε (Reply q)).Asks allowed :=
  ⟨h, fun _ => trivial⟩

theorem asks_bind {p : Program Reply ε α} {k : α → Program Reply ε β} (hp : p.Asks allowed)
    (hk : ∀ a, (k a).Asks allowed) : (p >>= k).Asks allowed := by
  induction p with
  | done result =>
    cases result with
    | ok a => exact hk a
    | error e => exact trivial
  | ask request next ih => exact ⟨hp.1, fun reply => ih reply (hp.2 reply)⟩
  | running => exact trivial

theorem asks_attempt {δ : Type} {p : Program Reply ε α} (h : p.Asks allowed) :
    (p.attempt : Program Reply δ (Except ε α)).Asks allowed := by
  induction p with
  | done result => exact trivial
  | ask request next ih => exact ⟨h.1, fun reply => ih reply (h.2 reply)⟩
  | running => exact trivial

theorem asks_loop {turn : Program Reply ε (Option α)} (h : turn.Asks allowed) (turns : ℕ) :
    (loop turn turns).Asks allowed := by
  induction turns with
  | zero => exact trivial
  | succ turns ih =>
    refine asks_bind h fun next => ?_
    cases next with
    | none => exact ih
    | some a => exact trivial

/-- The log of a program grows by what it is allowed to ask. -/
theorem Asks.holds {p : Program Reply ε α} (h : p.Asks allowed) (past : List (Exchange Reply)) :
    p.Holds past fun _ log => ∃ added, log = past ++ added ∧ ∀ e ∈ added, allowed e.1 := by
  induction p generalizing past with
  | done result => exact ⟨[], (List.append_nil _).symm, nofun⟩
  | ask request next ih =>
    refine fun reply => (ih reply (h.2 reply) _).imp ?_
    rintro r log ⟨added, rfl, hadded⟩
    exact ⟨⟨request, reply⟩ :: added, by rw [List.append_assoc]; rfl,
      List.forall_mem_cons.mpr ⟨h.1, hadded⟩⟩
  | running => exact trivial

/-- The exchanges before a program are there when it ends. -/
theorem holds_extends (p : Program Reply ε α) (past : List (Exchange Reply)) :
    p.Holds past fun _ log => past <+: log :=
  holds_iff.mpr fun log _ _ => List.prefix_append past log

/-- A program whose surroundings reply as before does as before. -/
theorem Returns.bind_inv {p : Program Reply ε α} {k : α → Program Reply ε β} {a : α}
    {after : List (Exchange Reply)} {r : Except ε β} (hp : p.Returns log (.ok a))
    (h : (p >>= k).Returns (log ++ after) r) : (k a).Returns after r := by
  induction p generalizing log with
  | done result =>
    cases hp
    exact h
  | ask request next ih =>
    cases hp with
    | ask hp =>
      cases h with
      | ask h => exact ih _ hp h
  | running => exact nomatch hp

/-- A sequence fails in its first program, or ends in its second. -/
theorem Returns.bind_cases {p : Program Reply ε α} {k : α → Program Reply ε β}
    {r : Except ε β} (h : (p >>= k).Returns log r) :
    (∃ e, p.Returns log (.error e) ∧ r = .error e) ∨
      ∃ before after a, log = before ++ after ∧ p.Returns before (.ok a) ∧
        (k a).Returns after r := by
  induction p generalizing log with
  | done result =>
    cases result with
    | ok a => exact .inr ⟨[], log, a, rfl, .done _, h⟩
    | error e =>
      cases h
      exact .inl ⟨e, .done _, rfl⟩
  | ask request next ih =>
    cases h with
    | ask h =>
      obtain ⟨e, he, rfl⟩ | ⟨before, after, a, rfl, hbefore, hafter⟩ := ih _ h
      · exact .inl ⟨e, .ask he, rfl⟩
      · exact .inr ⟨_ :: before, after, a, rfl, .ask hbefore, hafter⟩
  | running => exact nomatch h

theorem Returns.bind {p : Program Reply ε α} {k : α → Program Reply ε β} {a : α}
    {after : List (Exchange Reply)} {r : Except ε β} (hp : p.Returns log (.ok a))
    (hk : (k a).Returns after r) : (p >>= k).Returns (log ++ after) r := by
  induction p generalizing log with
  | done result =>
    cases hp
    exact hk
  | ask request next ih =>
    cases hp with
    | ask hp => exact .ask (ih _ hp)
  | running => exact nomatch hp

theorem Returns.bind_error {p : Program Reply ε α} {k : α → Program Reply ε β} {e : ε}
    (hp : p.Returns log (.error e)) : (p >>= k).Returns log (.error e) := by
  induction p generalizing log with
  | done result =>
    cases hp
    exact .done _
  | ask request next ih =>
    cases hp with
    | ask hp => exact .ask (ih _ hp)
  | running => exact nomatch hp

theorem Returns.attempt {δ : Type} {p : Program Reply ε α} (h : p.Returns log result) :
    (p.attempt : Program Reply δ (Except ε α)).Returns log (.ok result) := by
  induction h with
  | done result => exact .done _
  | ask h ih => exact .ask ih

/-! ### The values of a program -/

/-- The values that the program can end with satisfy `q`. -/
def Yields (p : Program Reply ε α) (q : α → Prop) : Prop :=
  ∀ log a, p.Returns log (.ok a) → q a

theorem yields_any (p : Program Reply ε α) : p.Yields fun _ => True := fun _ _ _ => trivial

theorem yields_lift {x : Except ε α} {q : α → Prop} (h : ∀ a, x = .ok a → q a) :
    (lift x : Program Reply ε α).Yields q := fun _ a ha => by
  cases ha
  exact h a rfl

theorem yields_bind {p : Program Reply ε α} {k : α → Program Reply ε β} {q : α → Prop}
    {q' : β → Prop} (hp : p.Yields q) (hk : ∀ a, q a → (k a).Yields q') :
    (p >>= k).Yields q' := fun _ b hb => by
  obtain ⟨e, -, he⟩ | ⟨before, after, a, -, ha, hb⟩ := hb.bind_cases
  · cases he
  · exact hk a (hp before a ha) after b hb

/-! ### Playing a program -/

/-- The value of a program whose surroundings reply to a request always alike. -/
def value (host : (request : Request) → Reply request) : Program Reply ε α → Option α
  | .done result => result.toOption
  | .ask request next => (next (host request)).value host
  | .running => none

theorem exists_returns {host : (request : Request) → Reply request} {p : Program Reply ε α}
    {a : α} (h : p.value host = some a) : ∃ log, p.Returns log (.ok a) := by
  induction p with
  | done result =>
    cases result with
    | ok b =>
      cases h
      exact ⟨[], .done _⟩
    | error e => cases h
  | ask request next ih =>
    obtain ⟨log, hlog⟩ := ih _ h
    exact ⟨_, .ask hlog⟩
  | running => cases h

theorem Holds.and {post' : Except ε α → List (Exchange Reply) → Prop} {p : Program Reply ε α}
    (h : p.Holds past post) (h' : p.Holds past post') :
    p.Holds past fun r log => post r log ∧ post' r log :=
  holds_iff.mpr fun log r hr => ⟨holds_iff.mp h log r hr, holds_iff.mp h' log r hr⟩

end Program

end Effects
