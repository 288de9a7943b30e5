import SmiloBft.Types
import Mathlib.Data.List.Basic

/-! The commit handshake of the tendermint backend: a `Seal` call waiting in its
commit loop, the core's `sendResultChan`, `Start`, `Stop` and the miner's stop
signal, as a step function over the state they share. A block on `commitCh` is
represented by its hash, and a nil block by `none`. `Start` and `Stop` run under
`coreMu` without blocking, so each is one step; `sendResultChan` takes `coreMu`
in one step and completes its send in another. -/

namespace SmiloBft.Tendermint

set_option autoImplicit false

/-- A `commitCh` of capacity one, with the number of sends into it and receives out of it. -/
structure Channel where
  buf : Option (Option Hash)
  closed : Bool
  sent : Nat
  received : Nat
deriving DecidableEq

def Channel.make : Channel := ⟨none, false, 0, 0⟩

/-- Where the `Seal` call is; it posts the block with hash `hash` and loops on `select`. -/
inductive SealPc
  | idle
  | loopTop (hash : Hash)
  | selecting (hash : Hash) (ch : Option Nat)
  | returned (hash : Hash) (result : Option Hash)
  | stoppedEngine
  | panicked
deriving DecidableEq

/-- The state the handshake shares: the backend's fields, the channels made so far, the
block `sendResultChan` holds `coreMu` for, the `Seal` call and its `stop`. -/
structure State where
  coreStarted : Bool
  commitCh : Option Nat
  chans : List Channel
  sending : Option (Option Hash)
  sealPc : SealPc
  stopClosed : Bool
deriving DecidableEq

def init : State := ⟨false, none, [], none, .idle, false⟩

def State.chan (s : State) (c : Nat) : Channel := (s.chans[c]?).getD .make

/-- `sendResultChan` takes `coreMu` and `sendDone` completes its send; `sealEnter` … `sealStop`
are the steps of a `Seal` call, and `minerStop` closes its `stop`. -/
inductive Event
  | sendResultChan (block : Option Hash)
  | sendDone
  | start
  | stop (coreStopOk : Bool)
  | sealEnter (hash : Hash)
  | sealSelect
  | sealRecv
  | sealStop
  | minerStop

/-- `Seal` on a received block: return it when its hash matches, else keep waiting; on a
nil block the log call of the `else` branch evaluates `result.Hash()`. -/
def SealPc.afterRecv (hash : Hash) : Option Hash → SealPc
  | some result => if hash = result then .returned hash (some result) else .loopTop hash
  | none => .panicked

def step (s : State) : Event → Option State
  | .sendResultChan block => if s.sending = none then some { s with sending := some block } else none
  | .sendDone =>
    match s.sending, s.commitCh with
    | some block, some c =>
      if (s.chan c).buf = none then
        some { s with
          sending := none,
          chans := s.chans.modify (fun ch => { ch with buf := some block, sent := ch.sent + 1 }) c }
      else none
    | _, _ => none
  | .start =>
    if s.sending ≠ none then none
    else if s.coreStarted then some s
    else
      let chans := match s.commitCh with
        | some c => s.chans.modify (fun ch => { ch with closed := true }) c
        | none => s.chans
      some { s with coreStarted := true, commitCh := some chans.length, chans := chans ++ [.make] }
  | .stop coreStopOk =>
    if s.sending ≠ none then none
    else if s.coreStarted ∧ coreStopOk then some { s with coreStarted := false } else some s
  | .sealEnter hash =>
    match s.sealPc with
    | .loopTop _ | .selecting _ _ | .panicked => none
    | _ =>
      if s.sending ≠ none then none
      else some { s with sealPc := if s.coreStarted then .loopTop hash else .stoppedEngine, stopClosed := false }
  | .sealSelect =>
    match s.sealPc with
    | .loopTop hash => some { s with sealPc := .selecting hash s.commitCh }
    | _ => none
  | .sealRecv =>
    match s.sealPc with
    | .selecting hash (some c) =>
      match (s.chan c).buf with
      | some block =>
        some { s with
          sealPc := SealPc.afterRecv hash block,
          chans := s.chans.modify (fun ch => { ch with buf := none, received := ch.received + 1 }) c }
      | none => if (s.chan c).closed then some { s with sealPc := .panicked } else none
    | _ => none
  | .sealStop =>
    match s.sealPc with
    | .selecting hash _ => if s.stopClosed then some { s with sealPc := .returned hash none } else none
    | _ => none
  | .minerStop => some { s with stopClosed := true }

def run : State → List Event → Option State
  | s, [] => some s
  | s, e :: es => (step s e).bind fun s' => run s' es

def Reachable (s : State) : Prop := ∃ evs, run init evs = some s

theorem run_invariant (P : State → Prop) (hstep : ∀ s e s', P s → step s e = some s' → P s') :
    ∀ (evs : List Event) (s s' : State), P s → run s evs = some s' → P s'
  | [], s, s', hs, h => by cases h; exact hs
  | e :: es, s, s', hs, h => by
    obtain ⟨s₁, h₁, h⟩ := Option.bind_eq_some.mp h
    exact run_invariant P hstep es s₁ s' (hstep s e s₁ hs h₁) h

theorem Reachable.invariant {P : State → Prop} (hinit : P init)
    (hstep : ∀ s e s', P s → step s e = some s' → P s') {s : State} (h : Reachable s) : P s :=
  let ⟨evs, hrun⟩ := h
  run_invariant P hstep evs init s hinit hrun

/-- A channel holds a value exactly when one more send completed than receives. -/
def Channel.Balanced (ch : Channel) : Prop := ch.sent = ch.received + if ch.buf = none then 0 else 1

def Balanced (s : State) : Prop := ∀ c, (s.chan c).Balanced

theorem chan_modify (s : State) (f : Channel → Channel) (c d : Nat) :
    ((s.chans.modify f c)[d]?).getD .make = s.chan d ∨
      (d = c ∧ ((s.chans.modify f c)[d]?).getD .make = f (s.chan d)) := by
  by_cases hd : d = c
  · subst hd
    rw [List.getElem?_modify_eq]
    cases h : s.chans[d]? <;> simp [State.chan, h]
  · exact .inl (by rw [List.getElem?_modify_ne _ _ (Ne.symm hd)]; rfl)

theorem getD_append_make (l : List Channel) (d : Nat) :
    ((l ++ [.make])[d]?).getD .make = (l[d]?).getD .make := by
  rcases Nat.lt_or_ge d l.length with hd | hd
  · rw [List.getElem?_append_left hd]
  · rw [List.getElem?_append_right hd, List.getElem?_eq_none hd]
    generalize d - l.length = k
    cases k <;> rfl

theorem balanced_modify {s s' : State} (hs : Balanced s) {f : Channel → Channel} {c : Nat}
    (hf : (s.chan c).Balanced → (f (s.chan c)).Balanced) (h' : s'.chans = s.chans.modify f c) :
    Balanced s' := by
  intro d
  show Channel.Balanced ((s'.chans[d]?).getD .make)
  rw [h']
  rcases chan_modify s f c d with h | ⟨rfl, h⟩ <;> rw [h]
  · exact hs d
  · exact hf (hs d)

theorem balanced_append_make {s : State} (hs : Balanced s) :
    Balanced { s with chans := s.chans ++ [.make] } := fun d =>
  (congrArg Channel.Balanced (getD_append_make s.chans d)).mpr (hs d)

theorem balanced_step {s s' : State} {e : Event} (hs : Balanced s) (h : step s e = some s') :
    Balanced s' := by
  cases e <;> simp only [step] at h <;> (repeat' split at h) <;> (try simp only [reduceCtorEq] at h) <;>
    obtain rfl := Option.some.inj h
  all_goals first | exact hs | skip
  case sendDone.h_1.isTrue hbuf =>
    refine balanced_modify hs (fun hc => ?_) rfl
    simp only [Channel.Balanced, hbuf] at hc ⊢
    simp [hc]
  case start.isFalse.isFalse.h_1 =>
    exact balanced_append_make (s := { s with chans := _ }) (balanced_modify hs id rfl)
  case start.isFalse.isFalse.h_2 => exact balanced_append_make hs
  case sealRecv.h_1.h_1 hbuf =>
    refine balanced_modify hs (fun hc => ?_) rfl
    simp only [Channel.Balanced, hbuf] at hc ⊢
    simp [hc]

theorem Reachable.balanced {s : State} (h : Reachable s) : Balanced s :=
  h.invariant (fun _ => by simp [State.chan, init, Channel.Balanced, Channel.make])
    fun _ _ _ hs hstep => balanced_step hs hstep

/-- `Seal` returns from its loop only nil, or a block with the hash of the block it posted. -/
def ReturnsPosted (s : State) : Prop :=
  ∀ hash result, s.sealPc = .returned hash result → result = none ∨ result = some hash

theorem afterRecv_returned {hash h : Hash} {block r : Option Hash}
    (e : SealPc.afterRecv hash block = .returned h r) : r = some h := by
  cases block with
  | none => cases e
  | some b =>
    simp only [SealPc.afterRecv] at e
    split_ifs at e with hb
    cases e
    rw [hb]

theorem returnsPosted_step {s s' : State} {e : Event} (hs : ReturnsPosted s) (h : step s e = some s') :
    ReturnsPosted s' := by
  cases e <;> simp only [step] at h <;> (repeat' split at h) <;> (try simp only [reduceCtorEq] at h) <;>
    obtain rfl := Option.some.inj h
  all_goals first | exact hs | intro hash result hr
  case sealRecv.h_1.h_1 => exact .inr (afterRecv_returned hr)
  case sealStop.h_1.isTrue => cases hr; exact .inl rfl
  all_goals cases hr

theorem Reachable.returnsPosted {s : State} (h : Reachable s) : ReturnsPosted s :=
  h.invariant (fun _ _ h => by cases h) fun _ _ _ hs hstep => returnsPosted_step hs hstep

def CommitChMade (s : State) : Prop := ∀ c, s.commitCh = some c → c < s.chans.length

theorem commitChMade_step {s s' : State} {e : Event} (hs : CommitChMade s) (h : step s e = some s') :
    CommitChMade s' := by
  cases e <;> simp only [step] at h <;> (repeat' split at h) <;> (try simp only [reduceCtorEq] at h) <;>
    obtain rfl := Option.some.inj h
  all_goals first | exact hs | intro c hc
  all_goals first | simpa using hs c hc | (simp only [Option.some.injEq] at hc; subst hc; simp)

theorem Reachable.commitChMade {s : State} (h : Reachable s) : CommitChMade s :=
  h.invariant (fun _ h => by cases h) fun _ _ _ hs hstep => commitChMade_step hs hstep

theorem chan_of_lt {s : State} {c : Nat} (h : c < s.chans.length) : s.chan c = s.chans[c] := by
  simp [State.chan, List.getElem?_eq_getElem h]

theorem seal_panics_on_restart (s : State) (hs : Reachable s) (hash : Hash) (c : Nat)
    (hsel : s.sealPc = .selecting hash (some c)) (hcur : s.commitCh = some c) (hidle : s.sending = none)
    (hempty : (s.chan c).buf = none) :
    ∃ s', run s [.stop true, .start, .sealRecv] = some s' ∧ s'.sealPc = .panicked := by
  have hlt := hs.commitChMade c hcur
  rw [chan_of_lt hlt] at hempty
  cases hst : s.coreStarted <;>
    simp [run, step, hidle, hst, hcur, hsel, State.chan, List.getElem?_append_left, hlt, hempty]

theorem seal_panics_on_nil_delivery (s : State) (hs : Reachable s) (hash : Hash) (c : Nat)
    (hsel : s.sealPc = .selecting hash (some c)) (hcur : s.commitCh = some c) (hnil : s.sending = some none)
    (hempty : (s.chan c).buf = none) :
    ∃ s', run s [.sendDone, .sealRecv] = some s' ∧ s'.sealPc = .panicked := by
  have hlt := hs.commitChMade c hcur
  rw [chan_of_lt hlt] at hempty
  simp [run, step, hnil, hcur, hsel, State.chan, hlt, hempty, SealPc.afterRecv]

/-- Over every run `Seal` returns only nil or the block it posted; yet from every state where
it waits on the current, empty `commitCh`, a restart or a nil delivery makes it panic. -/
theorem seal_returns_posted_but_panics_on_nil (s : State) (hs : Reachable s) :
    ReturnsPosted s ∧
      ∀ hash c, s.sealPc = .selecting hash (some c) → s.commitCh = some c → (s.chan c).buf = none →
        (s.sending = none → ∃ s', run s [.stop true, .start, .sealRecv] = some s' ∧ s'.sealPc = .panicked) ∧
        (s.sending = some none → ∃ s', run s [.sendDone, .sealRecv] = some s' ∧ s'.sealPc = .panicked) :=
  ⟨hs.returnsPosted, fun hash c hsel hcur hempty =>
    ⟨fun hidle => seal_panics_on_restart s hs hash c hsel hcur hidle hempty,
      fun hnil => seal_panics_on_nil_delivery s hs hash c hsel hcur hnil hempty⟩⟩

set_option maxRecDepth 20000 in
theorem seal_receives_nil :
    (∃ s, run init [.start, .sealEnter (.zero 32), .sealSelect, .stop true, .start, .sealRecv] = some s ∧
      s.sealPc = .panicked) ∧
    ∃ s, run init [.start, .sealEnter (.zero 32), .sealSelect, .sendResultChan none, .sendDone, .sealRecv] =
      some s ∧ s.sealPc = .panicked :=
  ⟨((seal_returns_posted_but_panics_on_nil _ ⟨[.start, .sealEnter (.zero 32), .sealSelect], rfl⟩).2
      (.zero 32) 0 rfl rfl rfl).1 rfl,
    ((seal_returns_posted_but_panics_on_nil _
      ⟨[.start, .sealEnter (.zero 32), .sealSelect, .sendResultChan none], rfl⟩).2 (.zero 32) 0 rfl rfl rfl).2 rfl⟩

/-- A held `sendResultChan` waits exactly when the current channel holds an unreceived
delivery or none was made; `Start`, `Stop` and `Seal` wait on `coreMu` meanwhile. -/
theorem sendResultChan_waits_iff_unreceived (s : State) (hs : Reachable s) (block : Option Hash)
    (hsend : s.sending = some block) :
    (step s .sendDone = none ↔
        s.commitCh = none ∨ ∃ c, s.commitCh = some c ∧ (s.chan c).sent = (s.chan c).received + 1) ∧
      step s .start = none ∧ (∀ ok, step s (.stop ok) = none) ∧ ∀ hash, step s (.sealEnter hash) = none := by
  refine ⟨?_, by simp [step, hsend], by simp [step, hsend], fun hash => ?_⟩
  · cases hc : s.commitCh with
    | none => simp [step, hsend, hc]
    | some c =>
      have hb := hs.balanced c
      simp only [Channel.Balanced] at hb
      by_cases hbuf : (s.chan c).buf = none <;> simp [step, hsend, hc, hbuf] at hb ⊢ <;> omega
  · simp only [step]
    split <;> simp [hsend]

set_option maxRecDepth 20000 in
theorem sendResultChan_waits_iff_unreceived_sample :
    ∃ s, Reachable s ∧ (step s .sendDone = none ↔
        s.commitCh = none ∨ ∃ c, s.commitCh = some c ∧ (s.chan c).sent = (s.chan c).received + 1) ∧
      step s .start = none ∧ (∀ ok, step s (.stop ok) = none) ∧ ∀ hash, step s (.sealEnter hash) = none :=
  ⟨_, ⟨[.start, .sendResultChan none], rfl⟩,
    sendResultChan_waits_iff_unreceived _ ⟨[.start, .sendResultChan none], rfl⟩ none rfl⟩

set_option maxRecDepth 20000 in
theorem sendResultChan_second_delivery_waits :
    ∃ s, run init [.start, .sendResultChan (some (.zero 32)), .sendDone,
        .sendResultChan (some (.fill 32 1))] = some s ∧
      s.sending = some (some (.fill 32 1)) ∧ (s.chan 0).buf = some (some (.zero 32)) ∧
      step s .sendDone = none ∧ step s .start = none ∧ step s (.stop true) = none ∧
      step s (.sealEnter (.zero 32)) = none :=
  ⟨_, rfl, rfl, rfl, rfl, rfl, rfl, rfl⟩

/-- `commitCh` is the last channel `Start` made, and the closed channels are those it replaced. -/
def CommitChLast (s : State) : Prop :=
  (∀ c, s.commitCh = some c ↔ c + 1 = s.chans.length) ∧
    ∀ c, c < s.chans.length → ((s.chan c).closed = true ↔ c + 1 < s.chans.length)

theorem closed_modify (s : State) {f : Channel → Channel} (hf : ∀ ch, (f ch).closed = ch.closed) (c d : Nat) :
    (((s.chans.modify f c)[d]?).getD .make).closed = (s.chan d).closed := by
  rcases chan_modify s f c d with h | ⟨-, h⟩ <;> rw [h]
  exact hf _

theorem commitChLast_modify {s s' : State} (hs : CommitChLast s) {f : Channel → Channel} {c : Nat}
    (h' : s'.chans = s.chans.modify f c) (hf : ∀ ch, (f ch).closed = ch.closed)
    (hc : s'.commitCh = s.commitCh) : CommitChLast s' := by
  refine ⟨fun d => ?_, fun d hd => ?_⟩
  · rw [hc, h', List.length_modify]
    exact hs.1 d
  · show (((s'.chans)[d]?).getD .make).closed = true ↔ _
    rw [h', closed_modify s hf, List.length_modify] at *
    exact hs.2 d (by simpa using hd)

theorem commitChLast_of_append_make {s' : State} {l : List Channel} (hc : s'.commitCh = some l.length)
    (hch : s'.chans = l ++ [.make]) (hl : ∀ d, d < l.length → ((l[d]?).getD .make).closed = true) :
    CommitChLast s' := by
  refine ⟨fun d => by simp [hc, hch, eq_comm], fun d hd => ?_⟩
  show ((s'.chans[d]?).getD .make).closed = true ↔ _
  rw [hch, getD_append_make]
  simp only [hch, List.length_append, List.length_singleton] at hd ⊢
  rcases Nat.lt_or_ge d l.length with hd' | hd'
  · simpa [hd'] using hl d hd'
  · simp [List.getElem?_eq_none hd', Channel.make]
    omega

theorem commitChLast_step {s s' : State} {e : Event} (hs : CommitChLast s) (h : step s e = some s') :
    CommitChLast s' := by
  cases e <;> simp only [step] at h <;> (repeat' split at h) <;> (try simp only [reduceCtorEq] at h) <;>
    obtain rfl := Option.some.inj h
  all_goals first | exact hs | skip
  case sendDone.h_1.isTrue => exact commitChLast_modify hs rfl (fun _ => rfl) rfl
  case sealRecv.h_1.h_1 => exact commitChLast_modify hs rfl (fun _ => rfl) rfl
  case start.isFalse.isFalse.h_1 c hc =>
    have hL := (hs.1 c).mp hc
    refine commitChLast_of_append_make rfl rfl fun d hd => ?_
    rw [List.length_modify] at hd
    by_cases hdc : d = c
    · subst hdc
      simp [List.getElem?_eq_getElem hd]
    · rw [List.getElem?_modify_ne _ _ (Ne.symm hdc)]
      exact (hs.2 d hd).mpr (by omega)
  case start.isFalse.isFalse.h_2 hc =>
    have hL : s.chans.length = 0 := by
      have := (hs.1 (s.chans.length - 1)).not.mp (by simp [hc])
      omega
    exact commitChLast_of_append_make rfl rfl fun d hd => absurd hd (by omega)

theorem Reachable.commitChLast {s : State} (h : Reachable s) : CommitChLast s :=
  h.invariant ⟨fun c => by simp [init], fun _ h => absurd h (Nat.not_lt_zero _)⟩
    fun _ _ _ hs hstep => commitChLast_step hs hstep

/-- In every reachable state the current `commitCh` is open and every replaced one closed. -/
theorem Reachable.commitCh_open {s : State} (h : Reachable s) :
    (∀ c, s.commitCh = some c → (s.chan c).closed = false) ∧
      ∀ c, c < s.chans.length → s.commitCh ≠ some c → (s.chan c).closed = true := by
  obtain ⟨hlast, hclosed⟩ := h.commitChLast
  refine ⟨fun c hc => ?_, fun c hc hne => (hclosed c hc).mpr ?_⟩
  · have hL := (hlast c).mp hc
    simpa [hL] using hclosed c (by omega)
  · have := mt (hlast c).mpr hne
    omega

set_option maxRecDepth 20000 in
theorem Reachable.commitCh_open_restart :
    ∃ s, Reachable s ∧ s.chans.length = 2 ∧
      (∀ c, s.commitCh = some c → (s.chan c).closed = false) ∧
        ∀ c, c < s.chans.length → s.commitCh ≠ some c → (s.chan c).closed = true :=
  ⟨_, ⟨[.start, .stop true, .start], rfl⟩, rfl, Reachable.commitCh_open ⟨[.start, .stop true, .start], rfl⟩⟩

theorem afterRecv_panicked {hash : Hash} {block : Option Hash} (h : SealPc.afterRecv hash block = .panicked) :
    block = none := by
  cases block with
  | none => rfl
  | some b =>
    simp only [SealPc.afterRecv] at h
    split_ifs at h

theorem closed_lt {s : State} {c : Nat} (h : (s.chan c).closed = true) : c < s.chans.length := by
  by_contra hc
  simp [State.chan, List.getElem?_eq_none (Nat.le_of_not_lt hc), Channel.make] at h

/-- From every reachable state, `Seal` panics only on receiving a nil delivery or from a
channel `Start` has replaced and closed, never from an empty current `commitCh`. -/
theorem seal_panics_only_on_nil_or_replaced {s s' : State} (hs : Reachable s) {e : Event}
    (h : step s e = some s') (hp : s'.sealPc = .panicked) (hp0 : s.sealPc ≠ .panicked) :
    e = .sealRecv ∧ ∃ hash c, s.sealPc = .selecting hash (some c) ∧
      ((s.chan c).buf = some none ∨ (s.chan c).buf = none ∧ s.commitCh ≠ some c) := by
  cases e <;> simp only [step] at h <;> (repeat' split at h) <;> (try simp only [reduceCtorEq] at h) <;>
    obtain rfl := Option.some.inj h
  all_goals try exact absurd hp hp0
  all_goals try (simp at hp; done)
  case sealRecv.h_1.h_1 hash c hsel _ block hbuf =>
    exact ⟨rfl, hash, c, hsel, .inl (afterRecv_panicked hp ▸ hbuf)⟩
  case sealRecv.h_1.h_2.isTrue hash c hsel _ hbuf hclosed =>
    obtain ⟨hlast, hcl⟩ := hs.commitChLast
    have hreplaced : c + 1 < s.chans.length := (hcl c (closed_lt hclosed)).mp hclosed
    exact ⟨rfl, hash, c, hsel, .inr ⟨hbuf, fun hc => by have := (hlast c).mp hc; omega⟩⟩

set_option maxRecDepth 20000 in
theorem seal_panics_only_on_nil_or_replaced_restart :
    ∃ s s', Reachable s ∧ step s .sealRecv = some s' ∧ s'.sealPc = .panicked ∧ s.sealPc ≠ .panicked ∧
      Event.sealRecv = .sealRecv ∧ ∃ hash c, s.sealPc = .selecting hash (some c) ∧
        ((s.chan c).buf = some none ∨ (s.chan c).buf = none ∧ s.commitCh ≠ some c) :=
  ⟨_, _, ⟨[.start, .sealEnter (.zero 32), .sealSelect, .stop true, .start], rfl⟩, rfl, rfl, by decide,
    seal_panics_only_on_nil_or_replaced ⟨[.start, .sealEnter (.zero 32), .sealSelect, .stop true, .start], rfl⟩
      rfl rfl (by decide)⟩

end SmiloBft.Tendermint
