import Mathlib.Data.List.AList
import Thornado.Lib.Transition

/-!
# Registries of shared handles

A registry holds one handle for each key, made by the first call that asks for the key and shared
by the others. A call looks the key up; if nothing is registered it looks again and registers a
new handle, starts the handle (which may fail), and runs its worker; if the start fails it takes
the entry out again. Every one of these is a step of its own, and the steps of other calls come
between them. A call may be dropped wherever it waits, and does nothing more. A worker that was
spawned runs forever.

* `Inv`: a registered handle has a worker, or exactly one call that registered it.
* `oneWorker`: no key ever has two workers.
-/

namespace Registry

open Transition

/-- What a service does with a request: `precheck` is checked before the registry is looked up,
`make` gives the constants of a new handle. -/
structure Service (Q K R E : Type) where
  key : Q → K
  precheck : Q → Except E Unit
  make : Q → Except E R
  /-- A registered handle has to be started before its worker is. -/
  boots : Bool
  /-- A handle remembers that its worker was spawned. -/
  guarded : Bool

/-- Where a call is. A handle is its place in the list of the handles made. -/
inductive Stage (E : Type) where
  | asked
  | missed
  | booting (handle : Nat)
  | booted (handle : Nat)
  | failed (handle : Nat) (err : E)
  | withdrawn (handle : Nat) (err : E)
  /-- Dropped, with the handle that it was starting. -/
  | dropped (handle : Option Nat)
  /-- Dropped before it took out the handle that it could not start. -/
  | abandoned (handle : Nat) (err : E)
  | done (result : Except E Nat)

structure Call (Q E : Type) where
  request : Q
  stage : Stage E

structure Sys (Q K R E : Type) where
  entries : AList (fun _ : K => Nat) := ∅
  handles : List (K × R) := []
  /-- The handle of every worker that runs. -/
  workers : List Nat := []
  calls : List (Call Q E) := []

inductive Act (Q E : Type) where
  | call (request : Q)
  | look (i : Nat)
  | insert (i : Nat)
  | boot (i : Nat) (outcome : Except E Unit)
  | withdraw (i : Nat)
  | spawn (i : Nat)
  | drop (i : Nat)

variable {Q K R E : Type}

def Sys.setStage (s : Sys Q K R E) (i : Nat) (stage : Stage E) : Sys Q K R E :=
  { s with calls := s.calls.modify i fun c => { c with stage := stage } }

/-- The handle that a call has registered, and neither taken out nor given a worker. -/
def Stage.holds : Stage E → Option Nat
  | .booting h | .booted h | .failed h _ | .abandoned h _ => some h
  | .dropped h => h
  | .asked | .missed | .withdrawn _ _ | .done _ => none

/-- The handle that a call returned. -/
def Stage.returned : Stage E → Option Nat
  | .done (.ok h) => some h
  | _ => none

/-- The call has not been answered, nor has it registered a handle. -/
def Stage.Waiting : Stage E → Prop
  | .asked | .missed => True
  | _ => False

/-- The key a handle was made for. -/
def Sys.keyOf (s : Sys Q K R E) (h : Nat) : Option K := (s.handles[h]?).map (·.1)

/-! ## The steps -/

section
variable [DecidableEq K] (svc : Service Q K R E)

def Service.spawned (workers : List Nat) (h : Nat) : List Nat :=
  if svc.guarded ∧ h ∈ workers then workers else workers ++ [h]

/-- The step has call `i` look the registry up. -/
def Service.looks (i : Nat) (request : Q) : Act Q E → Prop
  | .look j => j = i ∧ svc.precheck request = .ok ()
  | .insert j => j = i ∧ ∃ made, svc.make request = .ok made
  | _ => False

/-- A new handle, registered by call `i`. -/
def Sys.register (s : Sys Q K R E) (i : Nat) (key : K) (made : R) : Sys Q K R E :=
  { s with
    entries := s.entries.insert key s.handles.length
    handles := s.handles ++ [(key, made)] }.setStage i
      (if svc.boots then .booting s.handles.length else .booted s.handles.length)

def step (s : Sys Q K R E) : Act Q E → Option (Sys Q K R E)
  | .call request => some { s with calls := s.calls ++ [⟨request, .asked⟩] }
  | .look i =>
    match s.calls[i]? with
    | some ⟨request, .asked⟩ =>
      match svc.precheck request with
      | .error err => some (s.setStage i (.done (.error err)))
      | .ok () =>
        match s.entries.lookup (svc.key request) with
        | some h => some (s.setStage i (.done (.ok h)))
        | none => some (s.setStage i .missed)
    | _ => none
  | .insert i =>
    match s.calls[i]? with
    | some ⟨request, .missed⟩ =>
      match svc.make request with
      | .error err => some (s.setStage i (.done (.error err)))
      | .ok made =>
        match s.entries.lookup (svc.key request) with
        | some h => some (s.setStage i (.done (.ok h)))
        | none => some (s.register svc i (svc.key request) made)
    | _ => none
  | .boot i outcome =>
    match s.calls[i]? with
    | some ⟨_, .booting h⟩ =>
      match outcome with
      | .ok () => some (s.setStage i (.booted h))
      | .error err => some (s.setStage i (.failed h err))
    | _ => none
  | .withdraw i =>
    match s.calls[i]? with
    | some ⟨request, .failed h err⟩ =>
      some ({ s with entries := s.entries.erase (svc.key request) }.setStage i (.withdrawn h err))
    | _ => none
  | .spawn i =>
    match s.calls[i]? with
    | some ⟨_, .booted h⟩ =>
      some ({ s with workers := svc.spawned s.workers h }.setStage i (.done (.ok h)))
    | _ => none
  | .drop i =>
    match s.calls[i]? with
    | some ⟨_, .asked⟩ | some ⟨_, .missed⟩ => some (s.setStage i (.dropped none))
    | some ⟨_, .booting h⟩ => some (s.setStage i (.dropped (some h)))
    | some ⟨_, .failed h err⟩ => some (s.setStage i (.abandoned h err))
    | _ => none

/-- What a step can be. -/
inductive Step (s : Sys Q K R E) : Act Q E → Sys Q K R E → Prop
  | called {request : Q} :
      Step s (.call request) { s with calls := s.calls ++ [⟨request, .asked⟩] }
  /-- A call returns an error, or is to look again. -/
  | waited {a : Act Q E} {i : Nat} {c : Call Q E} {stage : Stage E} :
      s.calls[i]? = some c → c.stage.Waiting → a = .look i ∨ a = .insert i →
      (stage = .missed ∨ ∃ err, stage = .done (.error err)) → Step s a (s.setStage i stage)
  /-- A call returns the registered handle. -/
  | found {a : Act Q E} {i h : Nat} {c : Call Q E} :
      s.calls[i]? = some c → c.stage.Waiting → svc.looks i c.request a →
      s.entries.lookup (svc.key c.request) = some h → Step s a (s.setStage i (.done (.ok h)))
  | registered {i : Nat} {c : Call Q E} {made : R} :
      s.calls[i]? = some c → c.stage.Waiting → s.entries.lookup (svc.key c.request) = none →
      Step s (.insert i) (s.register svc i (svc.key c.request) made)
  | booted {i h : Nat} {c : Call Q E} :
      s.calls[i]? = some c → c.stage = .booting h →
      Step s (.boot i (.ok ())) (s.setStage i (.booted h))
  | failed {i h : Nat} {c : Call Q E} {err : E} :
      s.calls[i]? = some c → c.stage = .booting h →
      Step s (.boot i (.error err)) (s.setStage i (.failed h err))
  | withdrew {i h : Nat} {c : Call Q E} {err : E} :
      s.calls[i]? = some c → c.stage = .failed h err →
      Step s (.withdraw i)
        ({ s with entries := s.entries.erase (svc.key c.request) }.setStage i (.withdrawn h err))
  | spawned {i h : Nat} {c : Call Q E} :
      s.calls[i]? = some c → c.stage = .booted h →
      Step s (.spawn i)
        ({ s with workers := svc.spawned s.workers h }.setStage i (.done (.ok h)))
  | dropped {i : Nat} {c : Call Q E} {handle : Option Nat} :
      s.calls[i]? = some c →
      (c.stage.Waiting ∧ handle = none ∨ ∃ h, c.stage = .booting h ∧ handle = some h) →
      Step s (.drop i) (s.setStage i (.dropped handle))
  | abandoned {i h : Nat} {c : Call Q E} {err : E} :
      s.calls[i]? = some c → c.stage = .failed h err →
      Step s (.drop i) (s.setStage i (.abandoned h err))

section
variable {svc} {s s' : Sys Q K R E} {i : Nat}

theorem Step.of_look (h : step svc s (.look i) = some s') : Step svc s (.look i) s' := by
  simp only [step] at h
  split at h
  · rename_i request hi
    split at h
    · cases h
      exact .waited hi trivial (.inl rfl) (.inr ⟨_, rfl⟩)
    · rename_i hpre
      split at h
      · rename_i hlookup
        cases h
        exact .found hi trivial ⟨rfl, hpre⟩ hlookup
      · cases h
        exact .waited hi trivial (.inl rfl) (.inl rfl)
  · cases h

theorem Step.of_insert (h : step svc s (.insert i) = some s') : Step svc s (.insert i) s' := by
  simp only [step] at h
  split at h
  · rename_i request hi
    split at h
    · cases h
      exact .waited hi trivial (.inr rfl) (.inr ⟨_, rfl⟩)
    · rename_i made hmake
      split at h
      · rename_i hlookup
        cases h
        exact .found hi trivial ⟨rfl, made, hmake⟩ hlookup
      · rename_i hlookup
        cases h
        exact .registered hi trivial hlookup
  · cases h

theorem Step.of_drop (h : step svc s (.drop i) = some s') : Step svc s (.drop i) s' := by
  simp only [step] at h
  split at h
  · rename_i request hi
    cases h
    exact .dropped hi (.inl ⟨trivial, rfl⟩)
  · rename_i request hi
    cases h
    exact .dropped hi (.inl ⟨trivial, rfl⟩)
  · rename_i request hd hi
    cases h
    exact .dropped hi (.inr ⟨hd, rfl, rfl⟩)
  · rename_i request hd err hi
    cases h
    exact .abandoned hi rfl
  · cases h

theorem Step.of_step {a : Act Q E} (h : step svc s a = some s') : Step svc s a s' := by
  cases a with
  | call request =>
    cases h
    exact .called
  | look i => exact .of_look h
  | insert i => exact .of_insert h
  | boot i outcome =>
    simp only [step] at h
    split at h
    · rename_i request hd hi
      split at h
      · cases h
        exact .booted hi rfl
      · cases h
        exact .failed hi rfl
    · cases h
  | withdraw i =>
    simp only [step] at h
    split at h
    · rename_i request hd err hi
      cases h
      exact .withdrew hi rfl
    · cases h
  | spawn i =>
    simp only [step] at h
    split at h
    · rename_i request hd hi
      cases h
      exact .spawned hi rfl
    · cases h
  | drop i => exact .of_drop h

end

end

/-! ## Reading the calls -/

theorem Sys.setStage_calls (s : Sys Q K R E) (i j : Nat) (stage : Stage E) :
    (s.setStage i stage).calls[j]? =
      if i = j then (s.calls[i]?).map fun c => { c with stage := stage } else s.calls[j]? := by
  unfold Sys.setStage
  rw [List.getElem?_modify]
  split
  · rename_i hij
    subst hij
    rfl
  · cases s.calls[j]? <;> rfl

/-- The call at a place after another stage was given to call `i`. -/
theorem Sys.setStage_cases {s : Sys Q K R E} {i j : Nat} {stage : Stage E} {c d : Call Q E}
    (hi : s.calls[i]? = some c) (hj : (s.setStage i stage).calls[j]? = some d) :
    (i = j ∧ d = { c with stage := stage }) ∨ (i ≠ j ∧ s.calls[j]? = some d) := by
  rw [Sys.setStage_calls] at hj
  split at hj
  · rename_i hij
    rw [hi] at hj
    cases hj
    exact .inl ⟨hij, rfl⟩
  · rename_i hij
    exact .inr ⟨hij, hj⟩

theorem Sys.mem_setStage {s : Sys Q K R E} {i : Nat} {stage : Stage E} {c d : Call Q E}
    (hi : s.calls[i]? = some c) (hd : d ∈ (s.setStage i stage).calls) :
    d = { c with stage := stage } ∨ d ∈ s.calls := by
  obtain ⟨j, hj⟩ := List.mem_iff_getElem?.1 hd
  rcases Sys.setStage_cases hi hj with ⟨-, rfl⟩ | ⟨-, hj⟩
  · exact .inl rfl
  · exact .inr (List.mem_of_getElem? hj)

theorem Sys.setStage_mem {s : Sys Q K R E} {i : Nat} {stage : Stage E} {c : Call Q E}
    (hi : s.calls[i]? = some c) :
    { c with stage := stage } ∈ (s.setStage i stage).calls := by
  refine List.mem_of_getElem? (i := i) ?_
  rw [Sys.setStage_calls, if_pos rfl, hi]
  rfl

/-- The other calls are where they were. -/
theorem Sys.mem_setStage_of_ne {s : Sys Q K R E} {i : Nat} {stage : Stage E} {c d : Call Q E}
    (hi : s.calls[i]? = some c) (hd : d ∈ s.calls) (hne : d.stage ≠ c.stage) :
    d ∈ (s.setStage i stage).calls := by
  obtain ⟨j, hj⟩ := List.mem_iff_getElem?.1 hd
  refine List.mem_of_getElem? (i := j) ?_
  rw [Sys.setStage_calls, if_neg]
  · exact hj
  · rintro rfl
    rw [hi] at hj
    cases hj
    exact hne rfl

@[simp] theorem Sys.setStage_handles (s : Sys Q K R E) (i : Nat) (stage : Stage E) :
    (s.setStage i stage).handles = s.handles := rfl

@[simp] theorem Sys.setStage_workers (s : Sys Q K R E) (i : Nat) (stage : Stage E) :
    (s.setStage i stage).workers = s.workers := rfl

/-- The handle a registering call holds from then on. -/
theorem Service.first_holds (svc : Service Q K R E) (h : Nat) :
    (if svc.boots then Stage.booting h else Stage.booted h : Stage E).holds = some h := by
  split <;> rfl

theorem Sys.keyOf_append {s s' : Sys Q K R E} {h : Nat} {k : K} (hk : s.keyOf h = some k)
    {entry : K × R} (hs : s'.handles = s.handles ++ [entry]) : s'.keyOf h = some k := by
  obtain ⟨old, hget, hkey⟩ := Option.map_eq_some_iff.1 hk
  unfold Sys.keyOf
  rw [hs, List.getElem?_append_left (List.getElem?_eq_some_iff.1 hget).1, hget]
  exact congrArg some hkey

theorem Stage.Waiting.holds {stage : Stage E} (h : stage.Waiting) : stage.holds = none := by
  cases stage with
  | asked => rfl
  | missed => rfl
  | _ => cases h

theorem lookup_insert_cases [DecidableEq K] {entries : AList fun _ : K => Nat} {k k' : K}
    {n n' : Nat} (hk : (entries.insert k n).lookup k' = some n') :
    (k' = k ∧ n' = n) ∨ entries.lookup k' = some n' := by
  by_cases hkey : k' = k
  · subst hkey
    rw [AList.lookup_insert] at hk
    cases hk
    exact .inl ⟨rfl, rfl⟩
  · rw [AList.lookup_insert_ne hkey] at hk
    exact .inr hk

/-- A new entry leaves the others alone. -/
theorem lookup_insert_of_none [DecidableEq K] {entries : AList fun _ : K => Nat} {k k' : K}
    {n n' : Nat} (hnone : entries.lookup k = none) (hk : entries.lookup k' = some n') :
    (entries.insert k n).lookup k' = some n' := by
  rw [AList.lookup_insert_ne]
  · exact hk
  · rintro rfl
    rw [hnone] at hk
    cases hk

/-! ## Who holds a handle -/

section
variable [DecidableEq K] (svc : Service Q K R E)

/-- Every registered handle is one that has a worker or that a call holds; and the other way
round. -/
structure Inv (s : Sys Q K R E) : Prop where
  entry : ∀ k h, s.entries.lookup k = some h → s.keyOf h = some k
  holder : ∀ (i : Nat) (c : Call Q E) h, s.calls[i]? = some c → c.stage.holds = some h →
    s.entries.lookup (svc.key c.request) = some h ∧ h ∉ s.workers
  single : ∀ (i j : Nat) (c d : Call Q E) h, s.calls[i]? = some c →
    s.calls[j]? = some d → c.stage.holds = some h → d.stage.holds = some h → i = j
  fed : ∀ k h, s.entries.lookup k = some h →
    h ∈ s.workers ∨ ∃ c ∈ s.calls, c.stage.holds = some h
  worker : ∀ h ∈ s.workers, ∃ k, s.entries.lookup k = some h
  workers_nodup : s.workers.Nodup
  withdrawn : ∀ c ∈ s.calls, ∀ h err, c.stage = .withdrawn h err →
    h < s.handles.length ∧ ∀ k, s.entries.lookup k ≠ some h
  returned : ∀ c ∈ s.calls, ∀ h, c.stage.returned = some h → h < s.handles.length

end

namespace Inv

variable [DecidableEq K] {svc : Service Q K R E} {s : Sys Q K R E}

theorem start : Inv svc ({} : Sys Q K R E) where
  entry _ _ h := nomatch h
  holder _ _ _ h := nomatch h
  single _ _ _ _ _ h := nomatch h
  fed _ _ h := nomatch h
  worker _ h := nomatch h
  workers_nodup := List.nodup_nil
  withdrawn _ h := nomatch h
  returned _ h := nomatch h

theorem lt_length (h : Inv svc s) {k : K} {n : Nat} (hk : s.entries.lookup k = some n) :
    n < s.handles.length := by
  obtain ⟨entry, hget, -⟩ := Option.map_eq_some_iff.1 (h.entry k n hk)
  exact (List.getElem?_eq_some_iff.1 hget).1

/-- A handle is registered under one key. -/
theorem key_unique (h : Inv svc s) {k k' : K} {n : Nat} (hk : s.entries.lookup k = some n)
    (hk' : s.entries.lookup k' = some n) : k = k' := by
  have heq := h.entry k n hk
  rw [h.entry k' n hk'] at heq
  exact (Option.some.inj heq).symm

/-- A new call. -/
theorem called (h : Inv svc s) (request : Q) :
    Inv svc { s with calls := s.calls ++ [⟨request, .asked⟩] } := by
  have hget : ∀ {i : Nat} {c : Call Q E} {n : Nat},
      (s.calls ++ [⟨request, .asked⟩])[i]? = some c → c.stage.holds = some n →
        s.calls[i]? = some c := by
    intro i c n hi hn
    rw [List.getElem?_append] at hi
    split at hi
    · exact hi
    · have hc := List.mem_of_getElem? hi
      rw [List.mem_singleton.1 hc] at hn
      cases hn
  constructor
  · exact h.entry
  · exact fun i c n hi hn => h.holder i c n (hget hi hn) hn
  · exact fun i j c d n hi hj hc hd => h.single i j c d n (hget hi hc) (hget hj hd) hc hd
  · intro k n hk
    rcases h.fed k n hk with hw | ⟨c, hc, hn⟩
    · exact .inl hw
    · exact .inr ⟨c, List.mem_append_left _ hc, hn⟩
  · exact h.worker
  · exact h.workers_nodup
  · intro c hc n err hstage
    rcases List.mem_append.1 hc with hc | hc
    · exact h.withdrawn c hc n err hstage
    · rw [List.mem_singleton.1 hc] at hstage
      cases hstage
  · intro c hc n hn
    rcases List.mem_append.1 hc with hc | hc
    · exact h.returned c hc n hn
    · rw [List.mem_singleton.1 hc] at hn
      cases hn

/-- A call goes on with what it holds. -/
theorem restage (h : Inv svc s) {i : Nat} {c : Call Q E} {stage : Stage E}
    (hi : s.calls[i]? = some c) (hholds : stage.holds = c.stage.holds)
    (hreturned : ∀ n, stage.returned = some n → n < s.handles.length)
    (hwithdrawn : ∀ n err, stage ≠ .withdrawn n err) : Inv svc (s.setStage i stage) := by
  have hget : ∀ {j : Nat} {d : Call Q E} {n : Nat}, (s.setStage i stage).calls[j]? = some d →
      d.stage.holds = some n → ∃ d', s.calls[j]? = some d' ∧ d'.request = d.request ∧
        d'.stage.holds = some n := by
    intro j d n hj hn
    rcases Sys.setStage_cases hi hj with ⟨rfl, rfl⟩ | ⟨-, hj⟩
    · exact ⟨c, hi, rfl, hholds ▸ hn⟩
    · exact ⟨d, hj, rfl, hn⟩
  constructor
  · exact h.entry
  · intro j d n hj hn
    obtain ⟨d', hj', hreq, hn'⟩ := hget hj hn
    rw [← hreq]
    exact h.holder j d' n hj' hn'
  · intro j k d e n hj hk hd he
    obtain ⟨d', hj', -, hd'⟩ := hget hj hd
    obtain ⟨e', hk', -, he'⟩ := hget hk he
    exact h.single j k d' e' n hj' hk' hd' he'
  · intro k n hk
    rcases h.fed k n hk with hw | ⟨d, hd, hn⟩
    · exact .inl hw
    · by_cases hdc : d.stage = c.stage
      · exact .inr ⟨_, Sys.setStage_mem hi, by rw [hholds, ← hdc]; exact hn⟩
      · exact .inr ⟨d, Sys.mem_setStage_of_ne hi hd hdc, hn⟩
  · exact h.worker
  · exact h.workers_nodup
  · intro d hd n err hstage
    rcases Sys.mem_setStage hi hd with rfl | hd
    · exact absurd hstage (hwithdrawn n err)
    · exact h.withdrawn d hd n err hstage
  · intro d hd n hn
    rcases Sys.mem_setStage hi hd with rfl | hd
    · exact hreturned n hn
    · exact h.returned d hd n hn

/-- A new handle is registered. -/
theorem registered (h : Inv svc s) {i : Nat} {c : Call Q E} {made : R}
    (hi : s.calls[i]? = some c) (hwaiting : c.stage.Waiting)
    (hnone : s.entries.lookup (svc.key c.request) = none) :
    Inv svc (s.register svc i (svc.key c.request) made) := by
  have hcall : ∀ {j : Nat} {d : Call Q E} {n : Nat},
      (s.register svc i (svc.key c.request) made).calls[j]? = some d → d.stage.holds = some n →
        (i = j ∧ d.request = c.request ∧ n = s.handles.length) ∨ s.calls[j]? = some d := by
    intro j d n hj hn
    rcases Sys.setStage_cases hi hj with ⟨rfl, rfl⟩ | ⟨-, hj⟩
    · simp only [svc.first_holds, Option.some.injEq] at hn
      exact .inl ⟨rfl, rfl, hn.symm⟩
    · exact .inr hj
  -- no call and no worker has the new handle yet
  have hfresh : ∀ {j : Nat} {d : Call Q E}, s.calls[j]? = some d →
      d.stage.holds ≠ some s.handles.length := by
    intro j d hj hn
    exact absurd (h.lt_length (h.holder j d _ hj hn).1) (Nat.lt_irrefl _)
  constructor
  · intro k n hk
    rcases lookup_insert_cases hk with ⟨rfl, rfl⟩ | hk
    · unfold Sys.keyOf Sys.register
      rw [Sys.setStage_handles, List.getElem?_concat_length]
      rfl
    · exact Sys.keyOf_append (h.entry k n hk) rfl
  · intro j d n hj hn
    rcases hcall hj hn with ⟨-, hreq, rfl⟩ | hj
    · rw [hreq]
      refine ⟨AList.lookup_insert .., fun hw => ?_⟩
      obtain ⟨k, hk⟩ := h.worker _ hw
      exact absurd (h.lt_length hk) (Nat.lt_irrefl _)
    · exact ⟨lookup_insert_of_none hnone (h.holder j d n hj hn).1, (h.holder j d n hj hn).2⟩
  · intro j k d e n hj hk hd he
    rcases hcall hj hd with ⟨rfl, -, rfl⟩ | hj
    · rcases hcall hk he with ⟨rfl, -, -⟩ | hk
      · rfl
      · exact absurd he (hfresh hk)
    · rcases hcall hk he with ⟨rfl, -, rfl⟩ | hk
      · exact absurd hd (hfresh hj)
      · exact h.single j k d e n hj hk hd he
  · intro k n hk
    rcases lookup_insert_cases hk with ⟨rfl, rfl⟩ | hk
    · exact .inr ⟨_, Sys.setStage_mem hi, svc.first_holds _⟩
    · rcases h.fed k n hk with hw | ⟨d, hd, hn⟩
      · exact .inl hw
      · refine .inr ⟨d, Sys.mem_setStage_of_ne hi hd fun heq => ?_, hn⟩
        rw [heq, hwaiting.holds] at hn
        cases hn
  · intro n hw
    obtain ⟨k, hk⟩ := h.worker n hw
    exact ⟨k, lookup_insert_of_none hnone hk⟩
  · exact h.workers_nodup
  · intro d hd n err hstage
    rcases Sys.mem_setStage hi hd with rfl | hd
    · simp only at hstage
      split at hstage <;> cases hstage
    · obtain ⟨hlt, hnot⟩ := h.withdrawn d hd n err hstage
      refine ⟨?_, fun k hk => ?_⟩
      · unfold Sys.register
        simp only [Sys.setStage_handles, List.length_append, List.length_singleton]
        omega
      · rcases lookup_insert_cases hk with ⟨-, rfl⟩ | hk
        · exact absurd hlt (Nat.lt_irrefl _)
        · exact hnot k hk
  · intro d hd n hn
    have hlen : (s.register svc i (svc.key c.request) made).handles.length =
        s.handles.length + 1 := by
      simp [Sys.register]
    rcases Sys.mem_setStage hi hd with rfl | hd
    · simp only at hn
      split at hn <;> cases hn
    · have := h.returned d hd n hn
      omega

/-- What the calls hold after call `i` gave its handle up. -/
theorem released (h : Inv svc s) {i j n m : Nat} {c d : Call Q E} {stage : Stage E}
    (hi : s.calls[i]? = some c) (hholds : c.stage.holds = some n) (hnone : stage.holds = none)
    (hj : (s.setStage i stage).calls[j]? = some d) (hm : d.stage.holds = some m) :
    m ≠ n ∧ s.calls[j]? = some d := by
  rcases Sys.setStage_cases hi hj with ⟨-, rfl⟩ | ⟨hij, hold⟩
  · rw [hnone] at hm
    cases hm
  · refine ⟨?_, hold⟩
    rintro rfl
    exact hij (h.single i j c d m hi hold hholds hm)

/-- A handle that could not be started is taken out. -/
theorem withdrew (h : Inv svc s) {i n : Nat} {c : Call Q E} {err : E}
    (hi : s.calls[i]? = some c) (hstage : c.stage = .failed n err) :
    Inv svc ({ s with entries := s.entries.erase (svc.key c.request) }.setStage i
      (.withdrawn n err)) := by
  have hholds : c.stage.holds = some n := by rw [hstage]; rfl
  obtain ⟨hown, hidle⟩ := h.holder i c n hi hholds
  have hlookup : ∀ {k m}, (s.entries.erase (svc.key c.request)).lookup k = some m →
      m ≠ n ∧ s.entries.lookup k = some m := by
    intro k m hk
    have hkey : k ≠ svc.key c.request := by
      rintro rfl
      rw [AList.lookup_erase] at hk
      cases hk
    rw [AList.lookup_erase_ne hkey] at hk
    refine ⟨?_, hk⟩
    rintro rfl
    exact hkey (h.key_unique hk hown)
  have hold : ∀ {k m}, m ≠ n → s.entries.lookup k = some m →
      (s.entries.erase (svc.key c.request)).lookup k = some m := by
    intro k m hm hk
    rw [AList.lookup_erase_ne]
    · exact hk
    · rintro rfl
      rw [hown] at hk
      cases hk
      exact hm rfl
  constructor
  · exact fun k m hk => h.entry k m (hlookup hk).2
  · intro j d m hj hm
    obtain ⟨hne, hj⟩ := h.released hi hholds rfl hj hm
    exact ⟨hold hne (h.holder j d m hj hm).1, (h.holder j d m hj hm).2⟩
  · intro j k d e m hj hk hd he
    have hj' := (h.released hi hholds rfl hj hd).2
    have hk' := (h.released hi hholds rfl hk he).2
    exact h.single j k d e m hj' hk' hd he
  · intro k m hk
    obtain ⟨hne, hk⟩ := hlookup hk
    rcases h.fed k m hk with hw | ⟨d, hd, hm⟩
    · exact .inl hw
    · refine .inr ⟨d, Sys.mem_setStage_of_ne hi hd fun heq => ?_, hm⟩
      rw [heq, hholds] at hm
      cases hm
      exact hne rfl
  · intro m hm
    obtain ⟨k, hk⟩ := h.worker m hm
    refine ⟨k, hold ?_ hk⟩
    rintro rfl
    exact hidle hm
  · exact h.workers_nodup
  · intro d hd m err' hwithdrawn
    rcases Sys.mem_setStage hi hd with rfl | hd
    · cases hwithdrawn
      exact ⟨h.lt_length hown, fun k hk => (hlookup hk).1 rfl⟩
    · obtain ⟨hlt, hnot⟩ := h.withdrawn d hd m err' hwithdrawn
      exact ⟨hlt, fun k hk => hnot k (hlookup hk).2⟩
  · intro d hd m hm
    rcases Sys.mem_setStage hi hd with rfl | hd
    · cases hm
    · exact h.returned d hd m hm

/-- The worker of a started handle. -/
theorem spawned (h : Inv svc s) {i n : Nat} {c : Call Q E} (hi : s.calls[i]? = some c)
    (hstage : c.stage = .booted n) :
    Inv svc ({ s with workers := svc.spawned s.workers n }.setStage i (.done (.ok n))) := by
  have hholds : c.stage.holds = some n := by rw [hstage]; rfl
  obtain ⟨hown, hidle⟩ := h.holder i c n hi hholds
  have hworkers : svc.spawned s.workers n = s.workers ++ [n] :=
    if_neg fun hn => hidle hn.2
  constructor
  · exact h.entry
  · intro j d m hj hm
    obtain ⟨hne, hj⟩ := h.released hi hholds rfl hj hm
    obtain ⟨hreg, hnot⟩ := h.holder j d m hj hm
    refine ⟨hreg, ?_⟩
    simp only [Sys.setStage_workers, hworkers, List.mem_append, List.mem_singleton, not_or]
    exact ⟨hnot, hne⟩
  · intro j k d e m hj hk hd he
    have hj' := (h.released hi hholds rfl hj hd).2
    have hk' := (h.released hi hholds rfl hk he).2
    exact h.single j k d e m hj' hk' hd he
  · intro k m hk
    simp only [Sys.setStage_workers, hworkers, List.mem_append, List.mem_singleton]
    rcases h.fed k m hk with hw | ⟨d, hd, hm⟩
    · exact .inl (.inl hw)
    · by_cases heq : d.stage = c.stage
      · rw [heq, hholds] at hm
        exact .inl (.inr (Option.some.inj hm).symm)
      · exact .inr ⟨d, Sys.mem_setStage_of_ne hi hd heq, hm⟩
  · intro m hm
    simp only [Sys.setStage_workers, hworkers, List.mem_append, List.mem_singleton] at hm
    rcases hm with hm | rfl
    · exact h.worker m hm
    · exact ⟨_, hown⟩
  · simp only [Sys.setStage_workers, hworkers]
    exact h.workers_nodup.append (List.nodup_singleton n) (List.disjoint_singleton.2 hidle)
  · intro d hd m err hwithdrawn
    rcases Sys.mem_setStage hi hd with rfl | hd
    · cases hwithdrawn
    · exact h.withdrawn d hd m err hwithdrawn
  · intro d hd m hm
    rcases Sys.mem_setStage hi hd with rfl | hd
    · cases hm
      exact h.lt_length hown
    · exact h.returned d hd m hm

/-- The step lemma. -/
theorem step {s' : Sys Q K R E} {a : Act Q E} (h : Inv svc s)
    (hs : Registry.step svc s a = some s') : Inv svc s' := by
  cases Step.of_step hs with
  | called => exact h.called _
  | waited hi hwaiting _ hstage =>
    have hnone := hwaiting.holds
    rcases hstage with rfl | ⟨err, rfl⟩
    · exact h.restage hi hnone.symm (fun _ hn => nomatch hn) fun _ _ hn => nomatch hn
    · exact h.restage hi hnone.symm (fun _ hn => nomatch hn) fun _ _ hn => nomatch hn
  | found hi hwaiting _ hlookup =>
    refine h.restage hi hwaiting.holds.symm (fun n hn => ?_) fun _ _ hn => nomatch hn
    cases hn
    exact h.lt_length hlookup
  | registered hi hwaiting hnone => exact h.registered hi hwaiting hnone
  | booted hi hstage =>
    exact h.restage hi (by rw [hstage]; rfl) (fun _ hn => nomatch hn) fun _ _ hn => nomatch hn
  | failed hi hstage =>
    exact h.restage hi (by rw [hstage]; rfl) (fun _ hn => nomatch hn) fun _ _ hn => nomatch hn
  | withdrew hi hstage => exact h.withdrew hi hstage
  | spawned hi hstage => exact h.spawned hi hstage
  | dropped hi hstage =>
    refine h.restage hi ?_ (fun _ hn => nomatch hn) fun _ _ hn => nomatch hn
    rcases hstage with ⟨hwaiting, rfl⟩ | ⟨n, hbooting, rfl⟩
    · exact hwaiting.holds.symm
    · rw [hbooting]
      rfl
  | abandoned hi hstage =>
    exact h.restage hi (by rw [hstage]; rfl) (fun _ hn => nomatch hn) fun _ _ hn => nomatch hn

end Inv

/-- A call that could not start its handle takes out its own entry. -/
theorem Inv.withdraws [DecidableEq K] {svc : Service Q K R E} {s s' : Sys Q K R E} (h : Inv svc s)
    {i : Nat} {c : Call Q E} (hi : s.calls[i]? = some c)
    (hs : Registry.step svc s (.withdraw i) = some s') :
    s.entries.lookup (svc.key c.request) = c.stage.holds ∧
      s'.entries = s.entries.erase (svc.key c.request) := by
  obtain ⟨request, stage⟩ := c
  simp only [Registry.step, hi] at hs
  cases stage with
  | failed n err =>
    simp only [Option.some.injEq] at hs
    subst hs
    exact ⟨(h.holder i _ n hi rfl).1, rfl⟩
  | _ => cases hs

section
variable [DecidableEq K] {svc : Service Q K R E} {s s' : Sys Q K R E} {a : Act Q E}
  {ok : Sys Q K R E → Act Q E → Prop}

theorem holdings (h : Reach (step svc) ok (· = {}) s) : Inv svc s :=
  h.inv (fun _ hs => hs ▸ Inv.start) fun _ _ _ hinv _ hs => hinv.step hs

/-! ## One worker for each key -/

/-- No handle and no key has two workers, a worker stays, and a call that returns while a worker of
its key runs returns the handle that this worker feeds. -/
structure OneWorker (svc : Service Q K R E) (s : Sys Q K R E) : Prop where
  nodup : s.workers.Nodup
  unique : ∀ h ∈ s.workers, ∀ h' ∈ s.workers, s.keyOf h = s.keyOf h' → h = h'
  stays : ∀ a s', step svc s a = some s' → ∀ w ∈ s.workers,
    w ∈ s'.workers ∧ s'.keyOf w = s.keyOf w
  shared : ∀ a s', step svc s a = some s' → ∀ (i : Nat) (c d : Call Q E) h,
    s.calls[i]? = some c → c.stage.returned = none →
    s'.calls[i]? = some d → d.stage.returned = some h →
    ∀ w ∈ s'.workers, s'.keyOf w = some (svc.key d.request) → h = w

/-- The worker of a key feeds the registered handle. -/
theorem Inv.worker_registered (h : Inv svc s) {w : Nat} {k : K} (hw : w ∈ s.workers)
    (hk : s.keyOf w = some k) : s.entries.lookup k = some w := by
  obtain ⟨k', hk'⟩ := h.worker w hw
  have heq := h.entry k' w hk'
  rw [hk] at heq
  cases heq
  exact hk'

/-- A call returns what is registered. -/
theorem Inv.returns (h : Inv svc s) (hs : Registry.step svc s a = some s') {i n : Nat}
    {c d : Call Q E} (hi : s.calls[i]? = some c) (hc : c.stage.returned = none)
    (hi' : s'.calls[i]? = some d) (hd : d.stage.returned = some n) :
    s'.entries.lookup (svc.key d.request) = some n := by
  have hmoved : ∀ {t : Sys Q K R E} {j : Nat} {e : Call Q E} {stage : Stage E},
      t.calls = s.calls → s.calls[j]? = some e → (t.setStage j stage).calls[i]? = some d →
        d = { e with stage := stage } := by
    intro t j e stage ht hj hd'
    rw [← ht] at hj
    rcases Sys.setStage_cases hj hd' with ⟨-, rfl⟩ | ⟨-, hsame⟩
    · rfl
    · rw [ht, hi] at hsame
      cases hsame
      rw [hc] at hd
      cases hd
  cases Step.of_step hs with
  | called =>
    rw [List.getElem?_append_left (List.getElem?_eq_some_iff.1 hi).1, hi] at hi'
    cases hi'
    rw [hc] at hd
    cases hd
  | waited hj _ _ hstage =>
    cases hmoved rfl hj hi'
    rcases hstage with rfl | ⟨err, rfl⟩
    · cases hd
    · cases hd
  | found hj _ _ hlookup =>
    cases hmoved rfl hj hi'
    cases hd
    exact hlookup
  | registered hj _ _ =>
    cases hmoved rfl hj hi'
    simp only at hd
    split at hd <;> cases hd
  | booted hj _ =>
    cases hmoved rfl hj hi'
    cases hd
  | failed hj _ =>
    cases hmoved rfl hj hi'
    cases hd
  | withdrew hj _ =>
    cases hmoved rfl hj hi'
    cases hd
  | dropped hj _ =>
    cases hmoved rfl hj hi'
    cases hd
  | abandoned hj _ =>
    cases hmoved rfl hj hi'
    cases hd
  | @spawned j m e hj hstage =>
    cases hmoved rfl hj hi'
    cases hd
    exact (h.holder j e n hj (by rw [hstage]; rfl)).1

/-- A worker stays, for the same key. -/
theorem Inv.stays (h : Inv svc s) (hs : Registry.step svc s a = some s') {w : Nat}
    (hw : w ∈ s.workers) : w ∈ s'.workers ∧ s'.keyOf w = s.keyOf w := by
  cases Step.of_step hs with
  | registered _ _ _ =>
    obtain ⟨k, hk⟩ := h.worker w hw
    have hkey := h.entry k w hk
    exact ⟨hw, hkey ▸ Sys.keyOf_append hkey rfl⟩
  | spawned _ _ =>
    refine ⟨?_, rfl⟩
    simp only [Sys.setStage_workers, Service.spawned]
    split
    · exact hw
    · exact List.mem_append_left _ hw
  | _ => exact ⟨hw, rfl⟩

/-- **One worker for each key**, in every run. -/
theorem oneWorker (h : Reach (step svc) ok (· = {}) s) : OneWorker svc s := by
  have hinv := holdings h
  refine ⟨hinv.workers_nodup, fun w hw w' hw' hkey => ?_, fun a s' hs w hw => hinv.stays hs hw, ?_⟩
  · obtain ⟨k, hk⟩ := hinv.worker w hw
    have hk' := hinv.worker_registered hw' (hkey ▸ hinv.entry k w hk)
    rw [hk] at hk'
    exact Option.some.inj hk'
  · intro a s' hs i c d n hi hc hi' hd w hw hkey
    have hreg := hinv.returns hs hi hc hi' hd
    rw [(hinv.step hs).worker_registered hw hkey] at hreg
    exact (Option.some.inj hreg).symm

end

end Registry
