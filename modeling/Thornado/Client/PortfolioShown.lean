import Mathlib
import Thornado.Client.PortfolioPage

/-!
# The portfolio a page shows

What a page shows over its runs next to the portfolio gateway, with logins, switches of the wallet,
reconnects and answers that are late.

* `portfolio_shown_newest`: what the stream sends is shown, unless a snapshot is newer, and the page
  does not go back, if the gateway's clock does not and the effect of the stream does not run.
* `portfolio_shown_own`: while every request is made with the cookie of the wallet it is for, the
  page shows the selected wallet's portfolio. `foreign_portfolio_shown`: it does not check.
-/

namespace Client.PortfolioData

open Transition

open Execution (H160)
open Portfolio (Connection Frame Gateway GatewayAct PortfolioPayload gatewayStep)

variable {B : Type}

/-! ## The order of what arrives -/

/-- An answer on its way is no older than the one before, and none is from the future. -/
structure Query.InOrder (wall : Nat) (query : Query B) : Prop where
  past : ∀ e ∈ query.data, e.asOfMs ≤ wall
  request : ∀ r ∈ query.request, ∀ t ∈ r.asOfMs,
    t ≤ wall ∧ ∀ e ∈ query.data, e.asOfMs ≤ t

theorem Query.InOrder.mono {wall wall' : Nat} {query : Query B} (h : query.InOrder wall)
    (hle : wall ≤ wall') : query.InOrder wall' where
  past e he := (h.past e he).trans hle
  request r hr t ht := ⟨(h.request r hr t ht).1.trans hle, (h.request r hr t ht).2⟩

/-- The socket's connection, and that nothing it has not handled is older than what is shown. -/
structure Ahead (s : Page B) (i handled : Nat) (c : Connection B) : Prop where
  connection : s.gateway.connections[i]? = some c
  handled_le : handled ≤ c.received.length
  newer : ∀ e ∈ s.liveEnvelope, ∀ frame ∈ c.written.drop handled, ∀ t ∈ frame.asOfMs?,
    e.asOfMs ≤ t

structure InOrder (s : Page B) : Prop where
  onTime : Portfolio.OnTime s.gateway
  live : ∀ e ∈ s.liveEnvelope, e.asOfMs ≤ s.gateway.wall
  socket : ∀ i handled, s.socket = .connected i handled → ∃ c, Ahead s i handled c
  query : ∀ key, (s.queries key).InOrder s.gateway.wall

section
variable {trim : String → String} {debounceMs : Nat} {defaultSubaccountName : String}
  {s s' : Page B}

theorem asOfMs_of_normalize {frame : Frame B} {e : Envelope B}
    (h : normalizeEnvelope frame = some e) : frame.asOfMs? = some e.asOfMs := by
  unfold normalizeEnvelope at h
  split at h
  · cases h
    rfl
  · cases h
    rfl
  · cases h

theorem portfolio_of_normalize {frame : Frame B} {e : Envelope B}
    (h : normalizeEnvelope frame = some e) : frame.portfolio? = some e.portfolio := by
  unfold normalizeEnvelope at h
  split at h
  · cases h
    rfl
  · cases h
    rfl
  · cases h

theorem InOrder.gateway_step (h : InOrder s) {a : GatewayAct B}
    (hok : Portfolio.Forward s.gateway a) {gateway : Gateway B}
    (hs : gatewayStep debounceMs s.gateway a = some gateway) :
    InOrder { s with gateway := gateway } := by
  have hle := hok.le hs
  refine ⟨h.onTime.step hok hs, fun e he => (h.live e he).trans hle, fun i handled hsocket => ?_,
    fun key => (h.query key).mono hle⟩
  obtain ⟨c, hc, hhandled, hnewer⟩ := h.socket i handled hsocket
  obtain ⟨c', hc', hfollow⟩ := Portfolio.gatewayStep_follows hs hc
  refine ⟨c', hc', hhandled.trans hfollow.received.length_le, fun e he frame hframe t ht => ?_⟩
  rcases hfollow.written with hshort | ⟨last, hlong, hnow⟩
  · exact hnewer e he frame ((hshort.drop handled).subset hframe) t ht
  · rw [hlong] at hframe
    rcases Concat.mem_drop hframe with hframe | rfl
    · exact hnewer e he frame hframe t ht
    · rw [hnow t ht]
      exact h.live e he

/-- What the stream sends is never older than what the page has. -/
theorem Ahead.pick {i handled : Nat} {c : Connection B} (h : Ahead s i handled c)
    {frame : Frame B} (hframe : c.received[handled]? = some frame) {e : Envelope B}
    (he : normalizeEnvelope frame = some e) : pickLatestEnvelope s.liveEnvelope e = e := by
  unfold pickLatestEnvelope
  cases hlive : s.liveEnvelope with
  | none => rfl
  | some live =>
    have hmem : frame ∈ c.written.drop handled := by
      have hreceived : frame ∈ c.received.drop handled :=
        List.mem_of_getElem? (i := 0) (by rw [List.getElem?_drop, Nat.add_zero]; exact hframe)
      exact ((Portfolio.received_prefix_written c).drop handled).subset hreceived
    exact if_pos (h.newer live hlive frame hmem _ (asOfMs_of_normalize he))

theorem written_of_received {c : Connection B} {n : Nat} {frame : Frame B}
    (h : c.received[n]? = some frame) : c.written[n]? = some frame := by
  obtain ⟨rest, hrest⟩ := Portfolio.received_prefix_written c
  rw [← hrest, List.getElem?_append_left (List.getElem?_eq_some_iff.1 h).1]
  exact h

/-- The next message is shown, if it has a portfolio, and nothing after it is older. -/
theorem InOrder.handled (h : InOrder s) {i n : Nat} {c : Connection B}
    {frame : Frame B} (hsocket : s.socket = .connected i n)
    (hc : s.gateway.connections[i]? = some c) (hframe : c.received[n]? = some frame)
    (hgateway : s'.gateway = s.gateway) (hqueries : s'.queries = s.queries)
    (hnext : s'.socket = .connected i (n + 1))
    (hlive : s'.liveEnvelope = nextEnvelope s.liveEnvelope frame) : InOrder s' := by
  obtain ⟨d, hahead⟩ := h.socket i n hsocket
  obtain rfl : d = c := Option.some.inj (hahead.connection.symm.trans hc)
  have htimed := h.onTime d (List.mem_of_getElem? hc)
  have hwritten := written_of_received hframe
  have hdrop : d.written.drop n = frame :: d.written.drop (n + 1) := by
    obtain ⟨hlt, rfl⟩ := List.getElem?_eq_some_iff.1 hwritten
    exact List.drop_eq_getElem_cons hlt
  -- what is shown now was shown before or is the message's
  have hshown : ∀ e ∈ s'.liveEnvelope, e ∈ s.liveEnvelope ∨ normalizeEnvelope frame = some e := by
    intro e he
    rw [hlive, nextEnvelope] at he
    split at he
    · rename_i e' hn
      rw [hahead.pick hframe hn] at he
      exact .inr (hn.trans he)
    · exact .inl he
  refine ⟨hgateway ▸ h.onTime, fun e he => ?_, fun j m hj => ?_, fun key => ?_⟩
  · rw [hgateway]
    rcases hshown e he with he | hn
    · exact h.live e he
    · exact htimed.past _ (List.mem_filterMap.2
        ⟨frame, List.mem_of_getElem? hwritten, asOfMs_of_normalize hn⟩)
  · rw [hnext] at hj
    cases hj
    refine ⟨d, hgateway ▸ hc, (List.getElem?_eq_some_iff.1 hframe).1,
      fun e he later hlater t ht => ?_⟩
    rcases hshown e he with he | hn
    · exact hahead.newer e he later (hdrop ▸ List.mem_cons_of_mem _ hlater) t ht
    · have hordered := (List.pairwise_filterMap.1 htimed.ordered).sublist (List.drop_sublist n _)
      rw [hdrop] at hordered
      exact (List.pairwise_cons.1 hordered).1 later hlater _ (asOfMs_of_normalize hn) t ht
  · rw [hgateway, hqueries]
    exact h.query key

theorem Query.InOrder.asks (h : ∀ key, (s.queries key).InOrder s.gateway.wall) {a : PageAct B}
    {key : QueryKey} {query : Query B} (hasks : Asks trim defaultSubaccountName s a key query) :
    query.InOrder s.gateway.wall := by
  cases hasks with
  | requested =>
    refine ⟨(h _).past, fun r hr t ht => ?_⟩
    obtain ⟨_, -, rfl⟩ := Option.map_eq_some_iff.1 hr
    cases ht
  | served hrequest =>
    refine ⟨(h key).past, fun r hr t ht => ?_⟩
    cases hr
    cases ht
    exact ⟨Nat.le_refl _, (h key).past⟩
  | answered hrequest hown =>
    refine ⟨fun e he => ?_, fun r hr => nomatch hr⟩
    cases he
    exact ((h key).request _ hrequest _ rfl).1
  | dropped => exact ⟨(h key).past, fun r hr => nomatch hr⟩

theorem InOrder.step (h : InOrder s) {a : PageAct B} (hok : ForwardClock s a)
    (hs : Moves trim debounceMs defaultSubaccountName s a s') : InOrder s' := by
  cases hs with
  | gateway hgateway => exact h.gateway_step hok hgateway
  | quiet hgateway hqueries hlive hdeps hsocket =>
    refine ⟨hgateway ▸ h.onTime, fun e he => hgateway ▸ h.live e (hlive ▸ he),
      fun i n hs => ?_, fun key => ?_⟩
    · rcases hsocket with hsocket | hsocket
      · obtain ⟨c, hc, hle, hnewer⟩ := h.socket i n (hsocket ▸ hs)
        exact ⟨c, hgateway ▸ hc, hle, fun e he => hnewer e (hlive ▸ he)⟩
      · exact absurd hs (hsocket i n)
    · rw [hgateway, hqueries]
      exact h.query key
  | effect hne hgateway hqueries hlive hdeps hsocket =>
    refine ⟨hgateway ▸ h.onTime, fun e he => ?_, fun i n hs => absurd hs (hsocket i n),
      fun key => ?_⟩
    · rw [hlive] at he
      cases he
    · rw [hgateway, hqueries]
      exact h.query key
  | @connected deps owner name gateway _ hdeps hadmit hgateway hg hqueries hlive hsame hsocket =>
    obtain ⟨honTime, hpast, -, hquery⟩ := h.gateway_step (a := .connect owner name) trivial hgateway
    refine ⟨hg ▸ honTime, fun e he => hg ▸ hpast e (hlive ▸ he), fun i n hs => ?_,
      fun key => ?_⟩
    · rw [hsocket] at hs
      cases hs
      cases hgateway
      refine ⟨_, by rw [hg]; exact List.getElem?_concat_length, Nat.le_refl _,
        fun e _ frame hframe => ?_⟩
      cases hframe
    · rw [hg, hqueries]
      exact hquery key
  | handled hsocket hc hframe hgateway hqueries hdeps hnext hlive =>
    exact h.handled hsocket hc hframe hgateway hqueries hnext hlive
  | @query _ key query hasks =>
    refine ⟨h.onTime, h.live, fun i n hs => ?_, fun key' => ?_⟩
    · obtain ⟨c, hc, hle, hnewer⟩ := h.socket i n hs
      exact ⟨c, hc, hle, hnewer⟩
    · show (Function.update s.queries key query key').InOrder s.gateway.wall
      rw [Function.update_apply]
      split
      · exact Query.InOrder.asks h.query hasks
      · exact h.query key'

theorem InOrder.start (h : s.Start) : InOrder s := by
  obtain ⟨wall, uptime, cookie, selection, rfl⟩ := h
  refine ⟨?_, ?_, ?_, fun key => ⟨?_, ?_⟩⟩
  · exact fun c hc => nomatch hc
  · exact fun e he => nomatch he
  · exact fun i handled hs => nomatch hs
  · exact fun e he => nomatch he
  · exact fun r hr => nomatch hr

theorem Reach.inOrder
    (h : Reach (pageStep trim debounceMs defaultSubaccountName) ForwardClock Page.Start s) :
    InOrder s :=
  Reach.inv (P := InOrder) (fun _ => InOrder.start)
    (fun _ _ _ hp hok hs => hp.step hok (Moves.of_step hs)) h

end

/-! ## The page does not go back -/

/-- The time of what is shown. -/
def stamp : Option (Envelope B) → WithBot ℕ
  | none => ⊥
  | some e => e.asOfMs

section
variable {trim : String → String} {debounceMs : Nat} {defaultSubaccountName : String}
  {s s' : Page B}

theorem stamp_activeEnvelope : stamp (s.activeEnvelope trim) =
    max (stamp (s.queries (s.key trim)).data) (stamp s.liveEnvelope) := by
  unfold Page.activeEnvelope
  split
  · rename_i hdata
    rw [hdata]
    exact (max_eq_right bot_le).symm
  · rename_i snapshot hdata hlive
    rw [hdata, hlive]
    exact (max_eq_left bot_le).symm
  · rename_i snapshot live hdata hlive
    rw [hdata, hlive]
    split
    · rename_i hle
      exact (max_eq_right (WithBot.coe_le_coe.2 hle)).symm
    · rename_i hlt
      exact (max_eq_left (WithBot.coe_le_coe.2 (Nat.le_of_not_le hlt))).symm

theorem activeEnvelope_of_none (h : s.liveEnvelope = none) :
    s.activeEnvelope trim = (s.queries (s.key trim)).data := by
  unfold Page.activeEnvelope
  rw [h]
  cases (s.queries (s.key trim)).data with
  | none => rfl
  | some snapshot => rfl

/-- The effect drops what the stream sent. -/
theorem activeEnvelope_runEffect (s : Page B) (deps : Deps) :
    (s.runEffect deps).activeEnvelope trim = (s.queries (s.key trim)).data := by
  unfold Page.runEffect
  dsimp only
  split
  · exact activeEnvelope_of_none rfl
  · exact activeEnvelope_of_none rfl

theorem stamp_liveEnvelope_le (h : InOrder s) {a : PageAct B}
    (hs : Moves trim debounceMs defaultSubaccountName s a s') (hdeps : s'.deps = s.deps) :
    stamp s.liveEnvelope ≤ stamp s'.liveEnvelope := by
  cases hs with
  | gateway _ => exact le_refl _
  | quiet _ _ hlive _ _ => rw [hlive]
  | effect hne _ _ _ heffect _ => exact absurd (hdeps.symm.trans heffect) hne
  | connected _ _ _ _ _ hlive _ _ => rw [hlive]
  | handled hsocket hc hframe _ _ _ _ hlive =>
    rw [hlive, nextEnvelope]
    split
    · rename_i e he
      obtain ⟨d, hahead⟩ := h.socket _ _ hsocket
      obtain rfl := Option.some.inj (hahead.connection.symm.trans hc)
      rw [hahead.pick hframe he]
      cases hlive : s.liveEnvelope with
      | none => exact bot_le
      | some live =>
        have hpick := hahead.pick hframe he
        rw [hlive, pickLatestEnvelope] at hpick
        split at hpick
        · rename_i hle
          exact WithBot.coe_le_coe.2 hle
        · rw [hpick]
    · exact le_refl _
  | query _ => exact le_refl _

theorem stamp_data_le (h : InOrder s) {a : PageAct B}
    (hs : Moves trim debounceMs defaultSubaccountName s a s') (key : QueryKey) :
    stamp (s.queries key).data ≤ stamp (s'.queries key).data := by
  have hsame : s'.queries = s.queries →
      stamp (s.queries key).data ≤ stamp (s'.queries key).data := fun heq => by rw [heq]
  cases hs with
  | gateway _ => exact le_refl _
  | quiet _ hqueries _ _ _ => exact hsame hqueries
  | effect _ _ hqueries _ _ _ => exact hsame hqueries
  | connected _ _ _ _ hqueries _ _ _ => exact hsame hqueries
  | handled _ _ _ _ hqueries _ _ _ => exact hsame hqueries
  | @query _ key' query hasks =>
    show _ ≤ stamp (Function.update s.queries key' query key).data
    rw [Function.update_apply]
    split
    · rename_i heq
      subst heq
      cases hasks with
      | requested => exact le_refl _
      | served _ => exact le_refl _
      | answered hrequest _ =>
        cases hdata : (s.queries key).data with
        | none => exact bot_le
        | some e =>
          exact WithBot.coe_le_coe.2 (((h.query key).request _ hrequest _ rfl).2 e hdata)
      | dropped => exact le_refl _
    · exact le_refl _

variable (trim) in
/-- A message of the stream is the hook's newest one. -/
theorem InOrder.message (h : InOrder s) (hs : s.message = some s') {frame : Frame B}
    (harriving : frame ∈ s.arriving) {e : Envelope B} (he : e ∈ normalizeEnvelope frame) :
    s'.liveEnvelope = some e ∧ s'.queries = s.queries ∧ s'.key trim = s.key trim := by
  obtain ⟨i, n, c, hsocket, hc, hframe⟩ := arriving_cases harriving
  obtain ⟨d, hahead⟩ := h.socket i n hsocket
  obtain rfl := Option.some.inj (hahead.connection.symm.trans hc)
  obtain ⟨_, harriving', rfl⟩ := Option.map_eq_some_iff.1 hs
  obtain rfl := Option.some.inj (harriving.symm.trans harriving')
  have hmessage : s.onMessage frame = { s with
      liveEnvelope := some (pickLatestEnvelope s.liveEnvelope e), wsRuntimeError := none } := by
    unfold Page.onMessage
    rw [Option.mem_def.1 he]
  rw [hmessage]
  exact ⟨congrArg some (hahead.pick hframe he), rfl, rfl⟩

/-- **The page shows the newest**: of the stream it discards nothing as older than what the stream
sent, and it shows what the stream sends unless the snapshot of its selection is newer; while its
selection stays, and the effect of the stream does not run, it never goes back to an older one. The
effect leaves the snapshot. -/
theorem portfolio_shown_newest
    (h : Reach (pageStep trim debounceMs defaultSubaccountName) ForwardClock Page.Start s)
    {a : PageAct B} (hs : pageStep trim debounceMs defaultSubaccountName s a = some s') :
    (a = .message → ∀ frame ∈ s.arriving, ∀ e ∈ normalizeEnvelope frame,
      s'.liveEnvelope = some e ∧ (s'.activeEnvelope trim = some e ∨
        ∃ snapshot, (s.queries (s.key trim)).data = some snapshot ∧ e.asOfMs < snapshot.asOfMs ∧
          s'.activeEnvelope trim = some snapshot)) ∧
    (a ≠ .runEffect → s'.key trim = s.key trim →
      stamp (s.activeEnvelope trim) ≤ stamp (s'.activeEnvelope trim)) ∧
    (a = .runEffect → s'.activeEnvelope trim = (s.queries (s.key trim)).data) := by
  have hinv := Reach.inOrder h
  have hmoves := Moves.of_step hs
  refine ⟨?_, fun ha hkey => ?_, ?_⟩
  · rintro rfl frame harriving e he
    obtain ⟨hlive, hqueries, hkey⟩ := hinv.message trim hs harriving he
    refine ⟨hlive, ?_⟩
    unfold Page.activeEnvelope
    rw [hlive, hqueries, hkey]
    cases (s.queries (s.key trim)).data with
    | none => exact .inl rfl
    | some snapshot =>
      by_cases hle : snapshot.asOfMs ≤ e.asOfMs
      · exact .inl (congrArg some (if_pos hle))
      · exact .inr ⟨snapshot, rfl, Nat.lt_of_not_le hle, congrArg some (if_neg hle)⟩
  · rw [stamp_activeEnvelope, stamp_activeEnvelope, hkey]
    exact max_le_max (stamp_data_le hinv hmoves _)
      (stamp_liveEnvelope_le hinv hmoves (hmoves.deps ha))
  · rintro rfl
    dsimp only [pageStep] at hs
    split at hs
    · cases hs
    · cases hs
      exact activeEnvelope_runEffect s _

end

/-! ## Whose portfolio the page shows -/

/-- The portfolio of a wallet and a name, as the gateway takes it. -/
def Envelope.Own (defaultSubaccountName : String) (wallet : Option H160) (subaccountName : String)
    (e : Envelope B) : Prop :=
  ∃ owner name, wallet = some owner ∧
    Portfolio.subaccountNameFromQuery (some subaccountName) defaultSubaccountName = .ok name ∧
    e.portfolio.Own owner name

structure Owned (defaultSubaccountName : String) (s : Page B) : Prop where
  socket : ∀ i n, s.socket = .connected i n → ∃ c deps, s.gateway.connections[i]? = some c ∧
    s.deps = some deps ∧ deps.owner = some c.owner ∧
    Portfolio.subaccountNameFromQuery (some deps.subaccountName) defaultSubaccountName =
      .ok c.subaccountName
  live : ∀ e ∈ s.liveEnvelope, ∃ deps, s.deps = some deps ∧
    e.Own defaultSubaccountName deps.owner deps.subaccountName
  data : ∀ key, ∀ e ∈ (s.queries key).data,
    e.Own defaultSubaccountName key.owner key.subaccountName
  request : ∀ key, ∀ r ∈ (s.queries key).request, key.owner = some r.owner ∧
    Portfolio.subaccountNameFromQuery (some key.subaccountName) defaultSubaccountName =
      .ok r.subaccountName

section
variable {trim : String → String} {debounceMs : Nat} {defaultSubaccountName : String}
  {s s' : Page B}

theorem admitSession_eq_some {cookie : Option H160} {subaccountName : String} {owner : H160}
    {name : String}
    (h : admitSession defaultSubaccountName cookie subaccountName = some (owner, name)) :
    cookie = some owner ∧
      Portfolio.subaccountNameFromQuery (some subaccountName) defaultSubaccountName =
        .ok name := by
  unfold admitSession at h
  split at h
  · rename_i hname
    cases h
    exact ⟨rfl, hname⟩
  · cases h

theorem Owned.gateway_step (h : Owned defaultSubaccountName s) {a : GatewayAct B}
    {gateway : Gateway B} (hs : gatewayStep debounceMs s.gateway a = some gateway) :
    Owned defaultSubaccountName { s with gateway := gateway } := by
  refine ⟨fun i n hsocket => ?_, h.live, h.data, h.request⟩
  obtain ⟨c, deps, hc, hdeps, howner, hname⟩ := h.socket i n hsocket
  obtain ⟨c', hc', hfollow⟩ := Portfolio.gatewayStep_follows hs hc
  exact ⟨c', deps, hc', hdeps, by rw [howner, hfollow.owner],
    by rw [hname, hfollow.subaccountName]⟩

theorem Owned.asks (h : Owned defaultSubaccountName s) {a : PageAct B} (hok : OwnCookie s a)
    {key : QueryKey} {query : Query B} (hasks : Asks trim defaultSubaccountName s a key query) :
    (∀ e ∈ query.data, e.Own defaultSubaccountName key.owner key.subaccountName) ∧
      ∀ r ∈ query.request, key.owner = some r.owner ∧
        Portfolio.subaccountNameFromQuery (some key.subaccountName) defaultSubaccountName =
          .ok r.subaccountName := by
  cases hasks with
  | requested =>
    refine ⟨h.data _, fun r hr => ?_⟩
    obtain ⟨⟨owner, name⟩, hadmit, rfl⟩ := Option.map_eq_some_iff.1 hr
    obtain ⟨hcookie, hname⟩ := admitSession_eq_some hadmit
    have hwallet : s.cookie = s.selection.wallet := hok
    exact ⟨hwallet.symm.trans hcookie, hname⟩
  | served hrequest =>
    refine ⟨h.data key, fun r hr => ?_⟩
    cases hr
    have hasked := h.request key _ hrequest
    exact hasked
  | @answered key _ owner name asOfMs portfolio hrequest hown =>
    refine ⟨fun e he => ?_, fun r hr => nomatch hr⟩
    cases he
    obtain ⟨howner, hname⟩ := h.request key _ hrequest
    exact ⟨owner, name, howner, hname, hown⟩
  | dropped => exact ⟨h.data key, fun r hr => nomatch hr⟩

theorem Owned.step (h : Owned defaultSubaccountName s)
    (hgateway : Portfolio.Counted debounceMs s.gateway) {a : PageAct B} (hok : OwnCookie s a)
    (hs : Moves trim debounceMs defaultSubaccountName s a s') :
    Owned defaultSubaccountName s' := by
  cases hs with
  | gateway hstep => exact h.gateway_step hstep
  | quiet hg hqueries hlive hdeps hsocket =>
    refine ⟨fun i n hs => ?_, ?_, ?_, ?_⟩
    · rcases hsocket with hsocket | hsocket
      · rw [hg, hdeps]
        exact h.socket i n (hsocket ▸ hs)
      · exact absurd hs (hsocket i n)
    · rw [hlive, hdeps]
      exact h.live
    · rw [hqueries]
      exact h.data
    · rw [hqueries]
      exact h.request
  | effect hne hg hqueries hlive hdeps hsocket =>
    refine ⟨fun i n hs => absurd hs (hsocket i n), fun e he => ?_, ?_, ?_⟩
    · rw [hlive] at he
      cases he
    · rw [hqueries]
      exact h.data
    · rw [hqueries]
      exact h.request
  | @connected deps owner name gateway _ hdeps hadmit hstep hg hqueries hlive hsame hsocket =>
    obtain ⟨hcookie, hname⟩ := admitSession_eq_some hadmit
    have howner : s.cookie = deps.owner := hok deps hdeps
    refine ⟨fun i n hs => ?_, ?_, ?_, ?_⟩
    · rw [hsocket] at hs
      cases hs
      cases hstep
      exact ⟨_, deps, by rw [hg]; exact List.getElem?_concat_length, hsame.trans hdeps,
        howner.symm.trans hcookie, hname⟩
    · rw [hlive, hsame]
      exact h.live
    · rw [hqueries]
      exact h.data
    · rw [hqueries]
      exact h.request
  | @handled i n c frame _ hsocket hc hframe hg hqueries hdeps hnext hlive =>
    obtain ⟨d, deps, hd, hdeps', howner, hname⟩ := h.socket i n hsocket
    obtain rfl : d = c := Option.some.inj (hd.symm.trans hc)
    refine ⟨fun j m hs => ?_, fun e he => ?_, ?_, ?_⟩
    · rw [hnext] at hs
      cases hs
      exact ⟨d, deps, by rw [hg]; exact hc, hdeps.trans hdeps', howner, hname⟩
    · rw [hdeps]
      rw [hlive, nextEnvelope] at he
      split at he
      · rename_i e' hn
        obtain rfl := Option.some.inj he
        unfold pickLatestEnvelope
        have hown : e'.portfolio.Own d.owner d.subaccountName :=
          (hgateway.inv d (List.mem_of_getElem? hc)).streamed.own frame
            (List.mem_of_getElem? (written_of_received hframe)) _ (portfolio_of_normalize hn)
        split
        · exact ⟨deps, hdeps', d.owner, d.subaccountName, howner, hname, hown⟩
        · rename_i prev hprev
          split
          · exact ⟨deps, hdeps', d.owner, d.subaccountName, howner, hname, hown⟩
          · exact h.live prev hprev
      · exact h.live e he
    · rw [hqueries]
      exact h.data
    · rw [hqueries]
      exact h.request
  | @query _ key query hasks =>
    obtain ⟨hdata, hrequest⟩ := h.asks hok hasks
    refine ⟨h.socket, h.live, fun key' => ?_, fun key' => ?_⟩
    · show ∀ e ∈ (Function.update s.queries key query key').data, _
      rw [Function.update_apply]
      split
      · rename_i heq
        exact heq ▸ hdata
      · exact h.data key'
    · show ∀ r ∈ (Function.update s.queries key query key').request, _
      rw [Function.update_apply]
      split
      · rename_i heq
        exact heq ▸ hrequest
      · exact h.request key'

theorem Owned.start (h : s.Start) : Owned defaultSubaccountName s := by
  obtain ⟨wall, uptime, cookie, selection, rfl⟩ := h
  refine ⟨?_, ?_, ?_, ?_⟩
  · exact fun i n hs => nomatch hs
  · exact fun e he => nomatch he
  · exact fun key e he => nomatch he
  · exact fun key r hr => nomatch hr

/-- **Whose portfolio the page shows**: in every run whose requests are made with the cookie of the
wallet they are for, once the effect has run for the current selection, what is shown is the
portfolio of the selected wallet and subaccount, however the wallet was switched and whatever was
on its way then. -/
theorem portfolio_shown_own
    (h : Reach (pageStep trim debounceMs defaultSubaccountName) OwnCookie Page.Start s)
    (hsettled : s.Settled trim) {e : Envelope B} (he : e ∈ s.activeEnvelope trim) :
    e.Own defaultSubaccountName s.selection.wallet
      (normalizeSubaccountName trim s.selection.subaccountName) := by
  have hinv : Portfolio.Counted debounceMs s.gateway ∧ Owned defaultSubaccountName s := by
    refine Reach.inv (P := fun s =>
      Portfolio.Counted debounceMs s.gateway ∧ Owned defaultSubaccountName s)
      (fun s hs => ⟨?_, Owned.start hs⟩) (fun s a s' hp hok hs => ?_) h
    · obtain ⟨wall, uptime, cookie, selection, rfl⟩ := hs
      exact ⟨rfl, fun c hc => nomatch hc⟩
    · have hmoves := Moves.of_step hs
      exact ⟨hmoves.counted hp.1, hp.2.step hp.1 hok hmoves⟩
  have hlive : ∀ e ∈ s.liveEnvelope, e.Own defaultSubaccountName s.selection.wallet
      (normalizeSubaccountName trim s.selection.subaccountName) := by
    intro e he
    obtain ⟨deps, hdeps, hown⟩ := hinv.2.live e he
    obtain rfl := Option.some.inj (hdeps.symm.trans hsettled)
    exact hown
  unfold Page.activeEnvelope at he
  split at he
  · exact hlive e he
  · rename_i snapshot hdata _
    cases he
    exact hinv.2.data _ _ hdata
  · rename_i snapshot live hdata hsome
    split at he
    · cases he
      exact hlive _ hsome
    · cases he
      exact hinv.2.data _ _ hdata

end

/-! ## A wallet signs in -/

section

open Portfolio (trader)

def firstPage : Page Unit where
  gateway := { wall := 0, uptime := 0 }
  selection := ⟨none, false, "inkTestnet", none⟩

theorem firstPage_start : firstPage.Start := ⟨0, 0, none, ⟨none, false, "inkTestnet", none⟩, rfl⟩

/-- The wallet signs in, and the stream's first message is on its way. -/
def signsIn : List (PageAct Unit) :=
  [.select ⟨some trader, false, "inkTestnet", none⟩, .runEffect, .setCookie (some trader),
    .sessionRequest, .sessionResponse 0, .runEffect, .handshake,
    .gateway (.connection 0 (.fetched (.ok ()))), .gateway (.connection 0 (.sent true))]

/-- The message is shown, and nothing older than it afterwards. -/
theorem portfolio_shown_newest_signsIn :
    ∃ s s' e, run (pageStep id 750 "default") ForwardClock firstPage signsIn = some s ∧
      pageStep id 750 "default" s .message = some s' ∧ s'.liveEnvelope = some e ∧
      s'.activeEnvelope id = some e ∧
      stamp (s.activeEnvelope id) ≤ stamp (s'.activeEnvelope id) := by
  have hrun : (run (pageStep id 750 "default") ForwardClock firstPage signsIn).map (fun s =>
      ((s.arriving.bind normalizeEnvelope).isSome, (s.queries (s.key id)).data.isNone,
        (pageStep id 750 "default" s .message).isSome,
        decide ((pageStep id 750 "default" s .message).map (·.key id) = some (s.key id)))) =
      some (true, true, true, true) := by decide
  obtain ⟨s, hs, heq⟩ := Option.map_eq_some_iff.1 hrun
  obtain ⟨harrives, heq⟩ := Prod.mk.inj heq
  obtain ⟨hnone, heq⟩ := Prod.mk.inj heq
  obtain ⟨henabled, hsame⟩ := Prod.mk.inj heq
  obtain ⟨e, he⟩ := Option.isSome_iff_exists.1 harrives
  obtain ⟨frame, hframe, he⟩ := Option.bind_eq_some_iff.1 he
  obtain ⟨s', hs'⟩ := Option.isSome_iff_exists.1 henabled
  have hkey := of_decide_eq_true hsame
  rw [hs', Option.map_some, Option.some.injEq] at hkey
  obtain ⟨hmessage, hkept, -⟩ :=
    portfolio_shown_newest (Reach.of_run (.start firstPage_start) hs) hs'
  obtain ⟨hlive, hactive⟩ := hmessage rfl frame hframe e he
  refine ⟨s, s', e, hs, hs', hlive, hactive.resolve_right ?_, hkept (fun h => nomatch h) hkey⟩
  rintro ⟨snapshot, hsnapshot, -⟩
  rw [hsnapshot] at hnone
  cases hnone

theorem portfolio_shown_own_signsIn :
    ∃ s e, run (pageStep id 750 "default") OwnCookie firstPage (signsIn ++ [.message]) = some s ∧
      e ∈ s.activeEnvelope id ∧ e.Own "default" (some trader) "default" := by
  have hrun : (run (pageStep id 750 "default") OwnCookie firstPage (signsIn ++ [.message])).map
      (fun s => ((s.activeEnvelope id).isSome, decide (s.deps = some (s.currentDeps id)),
        decide ((s.selection.wallet, s.selection.subaccountName) = (some trader, none)))) =
      some (true, true, true) := by decide
  obtain ⟨s, hs, heq⟩ := Option.map_eq_some_iff.1 hrun
  obtain ⟨hshown, heq⟩ := Prod.mk.inj heq
  obtain ⟨hsettled, hselection⟩ := Prod.mk.inj heq
  obtain ⟨e, he⟩ := Option.isSome_iff_exists.1 hshown
  obtain ⟨hwallet, hname⟩ := Prod.mk.inj (of_decide_eq_true hselection)
  have hsettled : s.deps = some (s.currentDeps id) := of_decide_eq_true hsettled
  have hown := portfolio_shown_own (Reach.of_run (.start firstPage_start) hs) hsettled he
  rw [hwallet, hname] at hown
  exact ⟨s, e, hs, he, hown⟩

def otherTrader : H160 := ⟨#[2, 2, 2, 2, 2, 2, 2, 2, 2, 2, 2, 2, 2, 2, 2, 2, 2, 2, 2, 2], rfl⟩

/-- Another page signs in with another wallet; then the stream's socket closes. -/
def signsInElsewhere : List (PageAct Unit) :=
  signsIn ++ [.setCookie (some otherTrader), .close, .timer, .handshake,
    .gateway (.connection 1 (.fetched (.ok ()))), .gateway (.connection 1 (.sent true)), .message]

/-- The page reads its session no more often than once in a minute. -/
theorem foreign_portfolio_shown :
    ∃ (s : Page Unit) (e : Envelope Unit),
      Reach (pageStep id 750 "default") anyStep Page.Start s ∧ s.Settled id ∧
      e ∈ s.activeEnvelope id ∧ s.selection.wallet = some trader ∧
      e.portfolio.ownerAddress = Execution.hexAddress otherTrader := by
  have hrun : (run (pageStep id 750 "default") anyStep firstPage signsInElsewhere).map (fun s =>
      ((s.activeEnvelope id).map (·.portfolio.ownerAddress),
        decide (s.deps = some (s.currentDeps id)), s.selection.wallet)) =
      some (some (Execution.hexAddress otherTrader), true, some trader) := by decide
  obtain ⟨s, hs, heq⟩ := Option.map_eq_some_iff.1 hrun
  obtain ⟨hshown, heq⟩ := Prod.mk.inj heq
  obtain ⟨hsettled, hwallet⟩ := Prod.mk.inj heq
  obtain ⟨e, he, howner⟩ := Option.map_eq_some_iff.1 hshown
  have hsettled : s.deps = some (s.currentDeps id) := of_decide_eq_true hsettled
  exact ⟨s, e, Reach.of_run (.start firstPage_start) hs, hsettled, he, hwallet, howner⟩

end

end Client.PortfolioData
