import Thornado.Lib.Registry

/-!
# Handles that nobody feeds

A call that finds a handle returns it before anyone knows whether it can be started. If it cannot,
the call that registered it takes it out of the registry and no worker ever feeds it; if that call
is dropped, the handle stays there without a worker.

* `noOrphans`: every returned handle is registered and fed in the runs in which no handle breaks
  that a call has returned, and no call finds a broken one.
* `careful_of_noOrphans`: the first step of another kind makes an orphan.
-/

namespace Registry

open Transition

variable {Q K R E : Type} [DecidableEq K] {svc : Service Q K R E} {s s' : Sys Q K R E} {a : Act Q E}

/-- The handle that a call registered and will not start. -/
def Stage.broken : Stage E → Option Nat
  | .failed h _ | .abandoned h _ => some h
  | .dropped h => h
  | .asked | .missed | .booting _ | .booted _ | .withdrawn _ _ | .done _ => none

/-- A returned handle is registered, and its worker runs or the call that registered it is still
to spawn it; a call that could not start its handle and is over left nothing behind. -/
structure NoOrphans (svc : Service Q K R E) (s : Sys Q K R E) : Prop where
  registered : ∀ c ∈ s.calls, ∀ h, c.stage.returned = some h →
    s.entries.lookup (svc.key c.request) = some h
  fed : ∀ c ∈ s.calls, ∀ h, c.stage.returned = some h →
    h ∈ s.workers ∨ ∃ d ∈ s.calls, d.stage = .booting h ∨ d.stage = .booted h
  withdrawn : ∀ c ∈ s.calls, ∀ h err, c.stage = .withdrawn h err ∨ c.stage = .abandoned h err →
    (∀ k, s.entries.lookup k ≠ some h) ∧ ∀ d ∈ s.calls, d.stage.returned ≠ some h

/-- The condition on a step: no handle that a call has returned fails to start or is dropped by the
call that starts it, no call is dropped before it took its handle out, and no call finds a broken
handle. -/
def Careful (svc : Service Q K R E) (s : Sys Q K R E) : Act Q E → Prop
  | .boot i (.error _) => ∀ c ∈ s.calls[i]?, ∀ h ∈ c.stage.holds, ∀ d ∈ s.calls,
      d.stage.returned ≠ some h
  | .look i => ∀ c ∈ s.calls[i]?, (svc.precheck c.request).toBool →
      ∀ h ∈ s.entries.lookup (svc.key c.request), ∀ d ∈ s.calls, d.stage.broken ≠ some h
  | .insert i => ∀ c ∈ s.calls[i]?, (svc.make c.request).toBool →
      ∀ h ∈ s.entries.lookup (svc.key c.request), ∀ d ∈ s.calls, d.stage.broken ≠ some h
  | .drop i => ∀ c ∈ s.calls[i]?, c.stage.broken = none ∧ ∀ h ∈ c.stage.holds, ∀ d ∈ s.calls,
      d.stage.returned ≠ some h
  | _ => True

instance : (a : Act Q E) → Decidable (Careful svc s a)
  | .boot i (.error _) => inferInstanceAs (Decidable (∀ c ∈ s.calls[i]?, ∀ h ∈ c.stage.holds,
      ∀ d ∈ s.calls, d.stage.returned ≠ some h))
  | .look i => inferInstanceAs (Decidable (∀ c ∈ s.calls[i]?, (svc.precheck c.request).toBool →
      ∀ h ∈ s.entries.lookup (svc.key c.request), ∀ d ∈ s.calls, d.stage.broken ≠ some h))
  | .insert i => inferInstanceAs (Decidable (∀ c ∈ s.calls[i]?, (svc.make c.request).toBool →
      ∀ h ∈ s.entries.lookup (svc.key c.request), ∀ d ∈ s.calls, d.stage.broken ≠ some h))
  | .drop i => inferInstanceAs (Decidable (∀ c ∈ s.calls[i]?, c.stage.broken = none ∧
      ∀ h ∈ c.stage.holds, ∀ d ∈ s.calls, d.stage.returned ≠ some h))
  | .boot _ (.ok _) | .call _ | .withdraw _ | .spawn _ => isTrue trivial

/-- What the runs of careful steps keep. -/
structure Kept (svc : Service Q K R E) (s : Sys Q K R E) : Prop where
  registered : ∀ c ∈ s.calls, ∀ h, c.stage.returned = some h →
    s.entries.lookup (svc.key c.request) = some h
  sound : ∀ c ∈ s.calls, ∀ h, c.stage.returned = some h → ∀ d ∈ s.calls, d.stage.broken ≠ some h
  taken : ∀ c ∈ s.calls, ∀ h err, c.stage ≠ .abandoned h err

/-- A handle that a call holds is still to be started, or broken. -/
theorem holds_cases {stage : Stage E} {n : Nat} (h : stage.holds = some n) :
    stage = .booting n ∨ stage = .booted n ∨ stage.broken = some n := by
  cases stage with
  | booting m =>
    cases h
    exact .inl rfl
  | booted m =>
    cases h
    exact .inr (.inl rfl)
  | failed m err => exact .inr (.inr h)
  | dropped m => exact .inr (.inr h)
  | abandoned m err => exact .inr (.inr h)
  | asked => cases h
  | missed => cases h
  | withdrawn m err => cases h
  | done result => cases h

theorem broken_holds {stage : Stage E} {n : Nat} (h : stage.broken = some n) :
    stage.holds = some n := by
  cases stage with
  | failed m err => exact h
  | dropped m => exact h
  | abandoned m err => exact h
  | _ => cases h

theorem Kept.noOrphans (h : Kept svc s) (hinv : Inv svc s) : NoOrphans svc s := by
  refine ⟨h.registered, fun c hc n hn => ?_, fun c hc n err hstage => ?_⟩
  · rcases hinv.fed _ n (h.registered c hc n hn) with hw | ⟨d, hd, hholds⟩
    · exact .inl hw
    · rcases holds_cases hholds with hstage | hstage | hbroken
      · exact .inr ⟨d, hd, .inl hstage⟩
      · exact .inr ⟨d, hd, .inr hstage⟩
      · exact absurd hbroken (h.sound c hc n hn d hd)
  · rcases hstage with hstage | hstage
    · have hnot := (hinv.withdrawn c hc n err hstage).2
      exact ⟨hnot, fun d hd hn => hnot _ (h.registered d hd n hn)⟩
    · exact absurd hstage (h.taken c hc n err)

/-- A call goes on, and returns and breaks nothing. -/
theorem Kept.restage (h : Kept svc s) {i : Nat} {c : Call Q E} {stage : Stage E}
    (hi : s.calls[i]? = some c) (hreturned : stage.returned = none)
    (hbroken : stage.broken = none) : Kept svc (s.setStage i stage) := by
  refine ⟨fun d hd n hn => ?_, fun d hd n hn e he hb => ?_, fun d hd n err hstage => ?_⟩
  · rcases Sys.mem_setStage hi hd with rfl | hd
    · rw [hreturned] at hn
      cases hn
    · exact h.registered d hd n hn
  · rcases Sys.mem_setStage hi hd with rfl | hd
    · rw [hreturned] at hn
      cases hn
    · rcases Sys.mem_setStage hi he with rfl | he
      · rw [hbroken] at hb
        cases hb
      · exact h.sound d hd n hn e he hb
  · rcases Sys.mem_setStage hi hd with rfl | hd
    · rw [show stage = .abandoned n err from hstage] at hbroken
      cases hbroken
    · exact h.taken d hd n err hstage

/-- A handle breaks that no call has returned. -/
theorem Kept.breaks (h : Kept svc s) {i n : Nat} {c : Call Q E} {stage : Stage E}
    (hi : s.calls[i]? = some c) (hbroken : stage.broken = some n)
    (hreturned : stage.returned = none) (htaken : ∀ m err, stage ≠ .abandoned m err)
    (hunreturned : ∀ d ∈ s.calls, d.stage.returned ≠ some n) : Kept svc (s.setStage i stage) := by
  refine ⟨fun d hd m hm => ?_, fun d hd m hm e he hb => ?_, fun d hd m err hstage => ?_⟩
  · rcases Sys.mem_setStage hi hd with rfl | hd
    · rw [hreturned] at hm
      cases hm
    · exact h.registered d hd m hm
  · rcases Sys.mem_setStage hi hd with rfl | hd
    · rw [hreturned] at hm
      cases hm
    · rcases Sys.mem_setStage hi he with rfl | he
      · cases hbroken.symm.trans hb
        exact hunreturned d hd hm
      · exact h.sound d hd m hm e he hb
  · rcases Sys.mem_setStage hi hd with rfl | hd
    · exact htaken m err hstage
    · exact h.taken d hd m err hstage

/-- A call returns a registered handle that is not broken. -/
theorem Kept.return (h : Kept svc s) {i n : Nat} {c : Call Q E} (hi : s.calls[i]? = some c)
    (hreg : s.entries.lookup (svc.key c.request) = some n)
    (hsound : ∀ d ∈ s.calls, d.stage.broken ≠ some n) :
    Kept svc (s.setStage i (.done (.ok n))) := by
  refine ⟨fun d hd m hm => ?_, fun d hd m hm e he hb => ?_, fun d hd m err hstage => ?_⟩
  · rcases Sys.mem_setStage hi hd with rfl | hd
    · cases hm
      exact hreg
    · exact h.registered d hd m hm
  · rcases Sys.mem_setStage hi he with rfl | he
    · cases hb
    · rcases Sys.mem_setStage hi hd with rfl | hd
      · cases hm
        exact hsound e he hb
      · exact h.sound d hd m hm e he hb
  · rcases Sys.mem_setStage hi hd with rfl | hd
    · cases hstage
    · exact h.taken d hd m err hstage

theorem Kept.called (h : Kept svc s) (request : Q) :
    Kept svc { s with calls := s.calls ++ [⟨request, .asked⟩] } := by
  have hmem : ∀ {d : Call Q E}, d ∈ s.calls ++ [⟨request, .asked⟩] → d.stage ≠ .asked →
      d ∈ s.calls := by
    intro d hd hne
    rcases List.mem_append.1 hd with hd | hd
    · exact hd
    · rw [List.mem_singleton.1 hd] at hne
      exact absurd rfl hne
  refine ⟨fun d hd n hn => h.registered d (hmem hd ?_) n hn,
    fun d hd n hn e he hb => h.sound d (hmem hd ?_) n hn e (hmem he ?_) hb,
    fun d hd n err hstage => h.taken d (hmem hd ?_) n err hstage⟩
  · exact fun hasked => by rw [hasked] at hn; cases hn
  · exact fun hasked => by rw [hasked] at hn; cases hn
  · exact fun hasked => by rw [hasked] at hb; cases hb
  · exact fun hasked => by rw [hasked] at hstage; cases hstage

/-- A new handle has a key of which no call has returned one. -/
theorem Kept.register (h : Kept svc s) {i : Nat} {c : Call Q E} (made : R)
    (hi : s.calls[i]? = some c) (hnone : s.entries.lookup (svc.key c.request) = none) :
    Kept svc (s.register svc i (svc.key c.request) made) := by
  have hkept : Kept svc { s with
      entries := s.entries.insert (svc.key c.request) s.handles.length
      handles := s.handles ++ [(svc.key c.request, made)] } := by
    refine ⟨fun d hd n hn => ?_, h.sound, h.taken⟩
    have hreg := h.registered d hd n hn
    simp only
    rw [AList.lookup_insert_ne]
    · exact hreg
    · intro hkey
      rw [hkey, hnone] at hreg
      cases hreg
  exact hkept.restage hi (by split <;> rfl) (by split <;> rfl)

/-- A failed call takes its own handle out, which no call has returned. -/
theorem Kept.withdraw (h : Kept svc s) (hinv : Inv svc s) {i n : Nat} {c : Call Q E} {err : E}
    (hi : s.calls[i]? = some c) (hstage : c.stage = .failed n err) :
    Kept svc ({ s with entries := s.entries.erase (svc.key c.request) }.setStage i
      (.withdrawn n err)) := by
  have hown := (hinv.holder i c n hi (by rw [hstage]; rfl)).1
  have hkept : Kept svc { s with entries := s.entries.erase (svc.key c.request) } := by
    refine ⟨fun d hd m hm => ?_, h.sound, h.taken⟩
    have hreg := h.registered d hd m hm
    simp only
    rw [AList.lookup_erase_ne]
    · exact hreg
    · -- a returned handle of this key would be the broken one
      intro hkey
      rw [hkey, hown] at hreg
      cases hreg
      exact h.sound d hd n hm c (List.mem_of_getElem? hi) (by rw [hstage]; rfl)
  exact hkept.restage hi rfl rfl

theorem Kept.spawn (h : Kept svc s) (hinv : Inv svc s) {i n : Nat} {c : Call Q E}
    (hi : s.calls[i]? = some c) (hstage : c.stage = .booted n) :
    Kept svc ({ s with workers := svc.spawned s.workers n }.setStage i (.done (.ok n))) := by
  have hholds : c.stage.holds = some n := by rw [hstage]; rfl
  have hkept : Kept svc { s with workers := svc.spawned s.workers n } :=
    ⟨h.registered, h.sound, h.taken⟩
  refine hkept.return hi (hinv.holder i c n hi hholds).1 fun d hd hb => ?_
  obtain ⟨j, hj⟩ := List.mem_iff_getElem?.1 hd
  obtain rfl := hinv.single i j c d n hi hj hholds (broken_holds hb)
  rw [hi] at hj
  cases hj
  rw [hstage] at hb
  cases hb

theorem Kept.step (h : Kept svc s) (hinv : Inv svc s) (hok : Careful svc s a)
    (hs : Registry.step svc s a = some s') : Kept svc s' := by
  cases Step.of_step hs with
  | @called request => exact h.called request
  | waited hi _ _ hstage =>
    rcases hstage with rfl | ⟨err, rfl⟩
    · exact h.restage hi rfl rfl
    · exact h.restage hi rfl rfl
  | found hi _ hlooks hlookup =>
    refine h.return hi hlookup ?_
    cases a with
    | look j =>
      obtain ⟨rfl, hpre⟩ := hlooks
      exact hok _ hi (by rw [hpre]; rfl) _ hlookup
    | insert j =>
      obtain ⟨rfl, made, hmake⟩ := hlooks
      exact hok _ hi (by rw [hmake]; rfl) _ hlookup
    | _ => cases hlooks
  | @registered i c made hi _ hnone => exact h.register made hi hnone
  | booted hi _ => exact h.restage hi rfl rfl
  | @failed i n c err hi hstage =>
    have hunreturned := hok c hi n (by rw [hstage]; rfl)
    exact h.breaks hi rfl rfl (fun _ _ hne => nomatch hne) hunreturned
  | @dropped i c handle hi hstage =>
    rcases hstage with ⟨-, rfl⟩ | ⟨n, hbooting, rfl⟩
    · exact h.restage hi rfl rfl
    · have hunreturned := (hok c hi).2 n (by rw [hbooting]; rfl)
      exact h.breaks hi rfl rfl (fun _ _ hne => nomatch hne) hunreturned
  | @abandoned i n c err hi hstage =>
    have hunbroken := (hok c hi).1
    rw [hstage] at hunbroken
    cases hunbroken
  | withdrew hi hstage => exact h.withdraw hinv hi hstage
  | spawned hi hstage => exact h.spawn hinv hi hstage

theorem keptOf (h : Reach (step svc) (Careful svc) (· = {}) s) : Kept svc s ∧ Inv svc s := by
  refine Reach.inv (P := fun s => Kept svc s ∧ Inv svc s) ?_ ?_ h
  · rintro s rfl
    exact ⟨⟨fun _ hc => (nomatch hc), fun _ hc => (nomatch hc), fun _ hc => (nomatch hc)⟩,
      Inv.start⟩
  · rintro s a s' ⟨hkept, hinv⟩ hok hs
    exact ⟨hkept.step hinv hok hs, hinv.step hs⟩

/-- **No orphans** in the runs of careful steps. -/
theorem noOrphans (h : Reach (step svc) (Careful svc) (· = {}) s) : NoOrphans svc s := by
  obtain ⟨hkept, hinv⟩ := keptOf h
  exact hkept.noOrphans hinv

/-- A handle that a call just returned is not a broken one. -/
theorem NoOrphans.returned_sound {i n : Nat}
    (h : NoOrphans svc (s.setStage i (.done (.ok n))))
    (hinv : Inv svc s) {c : Call Q E} (hi : s.calls[i]? = some c) :
    ∀ d ∈ s.calls, d.stage.broken ≠ some n := by
  intro d hd hb
  obtain ⟨j, hj⟩ := List.mem_iff_getElem?.1 hd
  have hholds := broken_holds hb
  rcases h.fed _ (Sys.setStage_mem hi) n rfl with hw | ⟨e, he, hstage⟩
  · exact (hinv.holder j d n hj hholds).2 hw
  · have hne : e ∈ s.calls := by
      rcases Sys.mem_setStage hi he with rfl | he
      · rcases hstage with hstage | hstage <;> cases hstage
      · exact he
    obtain ⟨k, hk⟩ := List.mem_iff_getElem?.1 hne
    have heholds : e.stage.holds = some n := by
      rcases hstage with hstage | hstage <;> rw [hstage] <;> rfl
    obtain rfl := hinv.single j k d e n hj hk hholds heholds
    rw [hj] at hk
    cases hk
    rcases hstage with hstage | hstage <;> rw [hstage] at hb <;> cases hb

/-- A handle that just broke is not one that a call has returned. -/
theorem NoOrphans.unreturned {i n : Nat} {stage : Stage E} (h : NoOrphans svc (s.setStage i stage))
    (hinv : Inv svc s) {c : Call Q E} (hi : s.calls[i]? = some c)
    (hholds : c.stage.holds = some n) (hbroken : stage.broken = some n) :
    ∀ d ∈ s.calls, d.stage.returned ≠ some n := by
  intro d hd hn
  have hd' : d ∈ (s.setStage i stage).calls := by
    refine Sys.mem_setStage_of_ne hi hd fun heq => ?_
    rw [heq] at hn
    cases hstage : c.stage with
    | done result => rw [hstage] at hholds; cases hholds
    | _ => rw [hstage] at hn; cases hn
  rcases h.fed d hd' n hn with hw | ⟨e, he, hstage⟩
  · exact (hinv.holder i _ n hi hholds).2 hw
  · have heholds : e.stage.holds = some n := by
      rcases hstage with hstage | hstage <;> rw [hstage] <;> rfl
    obtain ⟨k, hk⟩ := List.mem_iff_getElem?.1 he
    rcases Sys.setStage_cases hi hk with ⟨-, rfl⟩ | ⟨hik, hk⟩
    · rcases hstage with hstage | hstage
      · rw [show stage = .booting n from hstage] at hbroken
        cases hbroken
      · rw [show stage = .booted n from hstage] at hbroken
        cases hbroken
    · exact hik (hinv.single i k _ e n hi hk hholds heholds)

theorem careful_look {i : Nat} (hinv : Inv svc s) (hs : step svc s (.look i) = some s')
    (h : NoOrphans svc s') : Careful svc s (.look i) := by
  intro c hi hpre n hlookup
  obtain ⟨request, stage⟩ := c
  simp only [step, Option.mem_def.1 hi] at hs
  cases stage with
  | asked =>
    cases hres : svc.precheck request with
    | error err => rw [hres] at hpre; cases hpre
    | ok _ =>
      simp only [hres, Option.mem_def.1 hlookup, Option.some.injEq] at hs
      subst hs
      exact h.returned_sound hinv hi
  | _ => cases hs

theorem careful_insert {i : Nat} (hinv : Inv svc s) (hs : step svc s (.insert i) = some s')
    (h : NoOrphans svc s') : Careful svc s (.insert i) := by
  intro c hi hmake n hlookup
  obtain ⟨request, stage⟩ := c
  simp only [step, Option.mem_def.1 hi] at hs
  cases stage with
  | missed =>
    cases hres : svc.make request with
    | error err => rw [hres] at hmake; cases hmake
    | ok _ =>
      simp only [hres, Option.mem_def.1 hlookup, Option.some.injEq] at hs
      subst hs
      exact h.returned_sound hinv hi
  | _ => cases hs

theorem careful_boot {i : Nat} {outcome : Except E Unit} (hinv : Inv svc s)
    (hs : step svc s (.boot i outcome) = some s') (h : NoOrphans svc s') :
    Careful svc s (.boot i outcome) := by
  cases outcome with
  | ok _ => trivial
  | error err =>
    intro c hi n hholds
    obtain ⟨request, stage⟩ := c
    simp only [step, Option.mem_def.1 hi] at hs
    cases stage with
    | booting m =>
      cases hholds
      simp only [Option.some.injEq] at hs
      subst hs
      exact h.unreturned hinv hi rfl rfl
    | _ => cases hs

theorem careful_drop {i : Nat} (hinv : Inv svc s) (hs : step svc s (.drop i) = some s')
    (h : NoOrphans svc s') : Careful svc s (.drop i) := by
  intro c hi
  obtain ⟨request, stage⟩ := c
  simp only [step, Option.mem_def.1 hi] at hs
  cases stage with
  | asked =>
    refine ⟨rfl, fun _ hholds => ?_⟩
    cases hholds
  | missed =>
    refine ⟨rfl, fun _ hholds => ?_⟩
    cases hholds
  | booting m =>
    simp only [Option.some.injEq] at hs
    subst hs
    refine ⟨rfl, fun n hholds => ?_⟩
    cases hholds
    exact h.unreturned hinv hi rfl rfl
  | failed m err =>
    simp only [Option.some.injEq] at hs
    subst hs
    have hleft := (h.withdrawn _ (Sys.setStage_mem hi) m err (.inr rfl)).1
    exact absurd (hinv.holder i _ m hi rfl).1 (hleft _)
  | _ => cases hs

/-- The first careless step makes an orphan. -/
theorem careful_of_noOrphans (hinv : Inv svc s) (hs : step svc s a = some s')
    (h : NoOrphans svc s') : Careful svc s a := by
  cases a with
  | look i => exact careful_look hinv hs h
  | insert i => exact careful_insert hinv hs h
  | boot i outcome => exact careful_boot hinv hs h
  | drop i => exact careful_drop hinv hs h
  | call _ | withdraw _ | spawn _ => trivial

end Registry
