import AsterForge.Config.ReloadSupervisor

/-!
# No hint is forgotten

With a `reconcile` callback, every hint is accounted for at any time: it is covered, it is on its way, a
connection update is ahead that leads to a reconciliation, it is being worked on, or a retry is due.  Where
nothing is on its way, nothing runs and no retry is due, only the first is left.  Without one, what failed
to be reloaded is covered by the pending message, which is due for a retry or being retried.

* **`config_sync_never_forgets`** — both, and that only hints that concern the process are acted on.
-/

namespace AsterForge.Config

open Library Events EventSupervisor ConfigReloadRetry Option List ReloadLoop ConfigSync

/-! ## Steps taken apart -/

variable {settings : ReloadSettings} {s t : ConfigSync} {tr transport' : Option Subscription}
  {self : ReloadLoop} {e : SupervisorEvent Hint} {p' : SupervisorPhase Hint}
  {ch c' : Option Update} {hint : Hint}

lemma loop_eq_some {event : LoopEvent} (h : s.loop settings tr event = some t) :
    ∃ self d, s.self.next settings s.now s.published.length event = some (self, d) ∧
      t = { s with self := self, transport := tr, record := d ++ s.record } := by
  obtain ⟨⟨self, d⟩, hn, rfl⟩ := map_eq_some_iff.mp h
  exact ⟨self, d, hn, rfl⟩

variable {af : ReloadLoop} {now : ℕ} {fr : Hint} {l : Bool}

/-- A step of the supervisor changes the supervisor, and the channel where it puts something into it. -/
lemma supervise_eq_some (h : self.supervise settings now e = some af) :
    ∃ sp u, self.supervisor.next settings.policy now e = some (sp, u) ∧
      ((u = none ∧ af = { self with supervisor := sp }) ∨
        ∃ put, u = some put ∧ self.channel = none ∧
          af = { self with supervisor := sp, channel := some put }) := by
  obtain ⟨⟨sp, u⟩, hn, h⟩ := bind_eq_some_iff.mp h
  refine ⟨sp, u, hn, ?_⟩
  cases u with
  | none => exact .inl ⟨rfl, (some.inj h).symm⟩
  | some put =>
    cases hchannel : self.channel with
    | none =>
      rw [hchannel] at h
      exact .inr ⟨put, rfl, rfl, (some.inj h).symm⟩
    | some f =>
      rw [hchannel] at h
      cases h

/-! ## Where the supervisor is -/

def Ready : Update → Prop
  | .connection observation => observation.state = .connected ∨ observation.state = .recovered
  | .item _ => False

def WellSending : SupervisorPhase Hint → Prop
  | .sending updates .stabilize => ∃ update, updates = [update] ∧ Ready update
  | .sending updates .receive => ∃ hint, updates = [.item hint]
  | .sending updates (.sleep _) => ∀ update ∈ updates, ∃ observation, update = .connection observation
  | .subscribing | .receiving | .sleeping _ => True

/-- A connection is to be announced before the supervisor receives anything. -/
def Reconnecting : SupervisorPhase Hint → Prop
  | .subscribing | .sleeping _ | .sending _ .stabilize | .sending _ (.sleep _) => True
  | .receiving | .sending _ .receive => False

/-- There is a subscription. -/
def Subscribed : SupervisorPhase Hint → Prop
  | .receiving | .sending _ .receive | .sending _ .stabilize => True
  | .subscribing | .sleeping _ | .sending _ (.sleep _) => False

variable {phase : SupervisorPhase Hint}

lemma reconnecting_of_not_subscribed (h : ¬ Subscribed phase) : Reconnecting phase := by
  cases phase with
  | subscribing => trivial
  | receiving => exact absurd trivial h
  | sleeping w => trivial
  | sending u af =>
    cases af with
    | receive => exact absurd trivial h
    | stabilize => trivial
    | sleep d => trivial

inductive SupervisorMove : SupervisorPhase Hint → Option Update → Option Subscription →
    SupervisorPhase Hint → Option Update → Option Subscription → Prop
  /-- It has a subscription, and is about to say so. -/
  | subscribed {channel : Option Update} {transport : Option Subscription} {update : Update}
      (ready : Ready update) :
      SupervisorMove .subscribing channel transport (.sending [update] .stabilize) channel (some ⟨[], false⟩)
  /-- It has none, or none any more. -/
  | failed {phase : SupervisorPhase Hint} {channel : Option Update} {transport transport' : Option Subscription}
      {updates : List Update} {delay : ℕ}
      (observations : ∀ update ∈ updates, ∃ observation, update = .connection observation) :
      SupervisorMove phase channel transport (.sending updates (.sleep delay)) channel transport'
  | received {channel : Option Update} {hint : Hint} {queue : List Hint} {failed : Bool} :
      SupervisorMove .receiving channel (some ⟨hint :: queue, failed⟩) (.sending [.item hint] .receive) channel
        (some ⟨queue, failed⟩)
  | announced {transport : Option Subscription} {update : Update} (ready : Ready update) :
      SupervisorMove (.sending [update] .stabilize) none transport .receiving (some update) transport
  | passed {transport : Option Subscription} {hint : Hint} :
      SupervisorMove (.sending [.item hint] .receive) none transport .receiving (some (.item hint)) transport
  /-- It goes on to wait, or waits. -/
  | waiting {phase phase' : SupervisorPhase Hint} {channel channel' : Option Update}
      {transport : Option Subscription} (idle : ¬ Subscribed phase') (sending : WellSending phase') :
      SupervisorMove phase channel transport phase' channel' transport

def Carries (transport : Option Subscription) (event : SupervisorEvent Hint)
    (transport' : Option Subscription) : Prop :=
  match event with
  | .subscribed => transport' = some ⟨[], false⟩
  | .received hint =>
    ∃ queue failed, transport = some ⟨hint :: queue, failed⟩ ∧ transport' = some ⟨queue, failed⟩
  | .receiveFailed _ => True
  | .subscribeFailed _ | .sent | .woke => transport' = transport

lemma supervisorMove_of_next (hs : WellSending self.supervisor.phase)
    (h : self.supervise settings now e = some af) (ht : Carries tr e transport') :
    SupervisorMove self.supervisor.phase self.channel tr af.supervisor.phase af.channel
      transport' := by
  obtain ⟨sp, u, hn, he⟩ := supervise_eq_some h
  have hfails : ∀ a dr, ∃ up d, (self.supervisor.fails settings.policy a dr).phase = .sending up (.sleep d) ∧
      ∀ u ∈ up, ∃ o, u = .connection o := by
    intro a dr
    refine ⟨_, _, rfl, fun u hup => ?_⟩
    rcases mem_cons.mp hup with rfl | hup
    · exact ⟨_, rfl⟩
    · exact ⟨_, mem_singleton.mp hup⟩
  cases e with
  | subscribed =>
    simp only [EventSupervisor.next] at hn
    split at hn
    · next hp =>
        cases hn
        obtain ⟨_, rfl⟩ | ⟨put, hpt, _⟩ := he
        · rw [hp, ht]
          refine .subscribed ?_
          by_cases hatt : self.supervisor.reconnectAttempt = 0
          · exact .inl (if_pos hatt)
          · exact .inr (if_neg hatt)
        · cases hpt
    · cases hn
  | subscribeFailed dr =>
    simp only [EventSupervisor.next] at hn
    split at hn
    · cases hn
      obtain ⟨_, rfl⟩ | ⟨put, hpt, _⟩ := he
      · obtain ⟨up, d, hp, ho⟩ := hfails self.supervisor.reconnectAttempt dr
        rw [hp]
        exact .failed ho
      · cases hpt
    · cases hn
  | received hint =>
    simp only [EventSupervisor.next] at hn
    split at hn
    · next hp =>
        cases hn
        obtain ⟨_, rfl⟩ | ⟨put, hpt, _⟩ := he
        · obtain ⟨q, f, rfl, rfl⟩ := ht
          rw [hp]
          exact .received
        · cases hpt
    · cases hn
  | receiveFailed dr =>
    simp only [EventSupervisor.next] at hn
    split at hn
    · cases hn
      obtain ⟨_, rfl⟩ | ⟨put, hpt, _⟩ := he
      · obtain ⟨up, d, hp, ho⟩ := hfails
          (if settings.policy.stableResetAfter ≤ now - self.supervisor.connectedAt then 0
            else self.supervisor.reconnectAttempt) dr
        rw [hp]
        exact .failed ho
      · cases hpt
    · cases hn
  | sent =>
    subst ht
    simp only [EventSupervisor.next] at hn
    split at hn
    · next u after' hp =>
        cases hn
        obtain ⟨hnn, _⟩ | ⟨put, hpt, hf, rfl⟩ := he
        · cases hnn
        · cases hpt
          rw [hp] at hs ⊢
          cases after' with
          | stabilize =>
            obtain ⟨r, hu, hr⟩ := hs
            cases hu
            rw [hf]
            exact .announced hr
          | receive =>
            obtain ⟨hint, hu⟩ := hs
            cases hu
            rw [hf]
            exact .passed
          | sleep d => exact .waiting id trivial
    · next u more after' _ hp =>
        cases hn
        obtain ⟨hnn, _⟩ | ⟨put, hpt, hf, rfl⟩ := he
        · cases hnn
        · rw [hp] at hs
          cases after' with
          | stabilize =>
            obtain ⟨r, hu, _⟩ := hs
            cases hu
            contradiction
          | receive =>
            obtain ⟨hint, hu⟩ := hs
            cases hu
            contradiction
          | sleep d =>
            exact .waiting id fun u hup => hs u (mem_cons_of_mem _ hup)
    · cases hn
  | woke =>
    subst ht
    simp only [EventSupervisor.next] at hn
    split at hn
    · split at hn
      · cases hn
        obtain ⟨_, rfl⟩ | ⟨put, hpt, _⟩ := he
        · exact .waiting id trivial
        · cases hpt
      · cases hn
    · cases hn

/-! ## Hints on their way -/

/-- A hint will reach the loop, or a connection that leads to a reconciliation is ahead. -/
inductive OnTheWay (hint : Hint) (phase : SupervisorPhase Hint) (channel : Option Update)
    (transport : Option Subscription) : Prop
  | reconnecting (reconnecting : Reconnecting phase)
  | announced {update : Update} (put : channel = some update) (ready : Ready update)
  | losing {subscription : Subscription} (active : transport = some subscription)
      (failed : subscription.failed = true)
  | queued {subscription : Subscription} (active : transport = some subscription)
      (queued : hint ∈ subscription.queue)
  | inHand (sending : phase = .sending [.item hint] .receive)
  | inChannel (put : channel = some (.item hint))

lemma SupervisorMove.wellSending (h : SupervisorMove phase ch tr p' c' transport') : WellSending p' := by
  cases h with
  | subscribed r => exact ⟨_, rfl, r⟩
  | failed o => exact o
  | received => exact ⟨_, rfl⟩
  | announced r => trivial
  | passed => trivial
  | waiting i sn => exact sn

lemma SupervisorMove.linked (h : SupervisorMove phase ch tr p' c' transport')
    (hl : Subscribed phase → tr.isSome = true) : Subscribed p' → transport'.isSome = true := by
  cases h with
  | subscribed r => exact fun _ => rfl
  | failed o => exact fun hs => hs.elim
  | received => exact fun _ => rfl
  | announced r | passed => exact fun _ => hl trivial
  | waiting i sn => exact fun hs => absurd hs i

lemma SupervisorMove.onTheWay (h : SupervisorMove phase ch tr p' c' transport')
    (hw : OnTheWay hint phase ch tr) : OnTheWay hint p' c' transport' := by
  cases h with
  | subscribed rd => exact .reconnecting trivial
  | failed o => exact .reconnecting trivial
  | @received _ fr qu f =>
    cases hw with
    | reconnecting r => exact r.elim
    | announced put rd => exact .announced put rd
    | losing a f =>
      cases a
      exact .losing rfl f
    | queued a q =>
      cases a
      rcases mem_cons.mp q with rfl | hl
      · exact .inHand rfl
      · exact .queued rfl hl
    | inHand sn => cases sn
    | inChannel put => exact .inChannel put
  | announced rd => exact .announced rfl rd
  | passed =>
    cases hw with
    | reconnecting r => exact r.elim
    | announced put rd => cases put
    | losing a f => exact .losing a f
    | queued a q => exact .queued a q
    | inHand sn =>
      cases sn
      exact .inChannel rfl
    | inChannel put => cases put
  | waiting i sn => exact .reconnecting (reconnecting_of_not_subscribed i)

/-! ## Hints that are accounted for -/

/-- A hint was reloaded, or a reconciliation that began after it was published succeeded. -/
def CoveredBy (record : List SyncRecord) (hint : Hint) : Prop :=
  .reloaded hint true ∈ record ∨ ∃ began, .reconciled began true ∈ record ∧ hint.serial < began

/-- The reconciliation that is running, by the number of hints published when it began. -/
def LoopPhase.running : LoopPhase → Option ℕ
  | .reconciling began | .retrying (.reconcile began) => some began
  | .selecting | .retrying (.reload _) | .retrying .nothing | .reloading _ | .returned => none

/-- A hint that reached the loop, or was missed, is covered, being worked on, or owed a retry. -/
inductive Handled (hint : Hint) (phase : LoopPhase) (retry : ConfigReloadRetry) (record : List SyncRecord) : Prop
  | covered (covered : CoveredBy record hint)
  | reloading (reloading : phase = .reloading hint)
  | running {began : ℕ} (running : phase.running = some began) (before : hint.serial < began)
  | owed (idle : phase.running = none) (due : retry.deadline.isSome = true)
  | returned (returned : phase = .returned)

/-- The invariant of a loop that reconciles. -/
structure SyncInv (settings : ReloadSettings) (s : ConfigSync) : Prop where
  sending : WellSending s.self.supervisor.phase
  linked : s.self.phase ≠ .returned → Subscribed s.self.supervisor.phase → s.transport.isSome = true
  works : ∀ work, s.self.phase = .retrying work → ∃ began, work = .reconcile began
  accounted : ∀ hint, s.published[hint.serial]? = some hint.message → settings.config.Concerns hint.message →
    OnTheWay hint s.self.supervisor.phase s.self.channel s.transport ∨
      Handled hint s.self.phase s.self.retry s.record

variable {record : List SyncRecord}

lemma CoveredBy.mono (h : CoveredBy record hint) (d : List SyncRecord) : CoveredBy (d ++ record) hint := by
  rcases h with hrl | ⟨b, hr, hb⟩
  · exact .inl (mem_append_right _ hrl)
  · exact .inr ⟨b, mem_append_right _ hr, hb⟩

lemma serial_lt {p : List ConfigReloadMessage}
    (h : p[hint.serial]? = some hint.message) : hint.serial < p.length :=
  (List.getElem?_eq_some_iff.mp h).1

lemma SyncInv.supervised (inv : SyncInv settings s) (h : s.loop settings tr (.supervisor e) = some t)
    (ht : Carries s.transport e tr) : SyncInv settings t := by
  obtain ⟨self, d, hn, rfl⟩ := loop_eq_some h
  simp only [ReloadLoop.next] at hn
  split at hn
  · next hsel =>
      obtain ⟨af, hs, heq⟩ := map_eq_some_iff.mp hn
      cases heq
      have hmove := supervisorMove_of_next inv.sending hs ht
      have hrest : self.phase = s.self.phase ∧ self.retry = s.self.retry := by
        obtain ⟨sp, u, _, ⟨_, rfl⟩ | ⟨put, _, _, rfl⟩⟩ := supervise_eq_some hs
        · exact ⟨rfl, rfl⟩
        · exact ⟨rfl, rfl⟩
      refine ⟨hmove.wellSending, fun hp => ?_, ?_, ?_⟩
      · exact hmove.linked (inv.linked (hrest.1 ▸ hp))
      · exact fun w hw => inv.works w (hrest.1.symm.trans hw)
      · intro hint hpb hc
        rw [hrest.1, hrest.2]
        exact (inv.accounted hint hpb hc).imp hmove.onTheWay id
  · cases hn

lemma SyncInv.received (inv : SyncInv settings s) (hr : settings.reconciles = true)
    (h : s.loop settings s.transport .recv = some t) : SyncInv settings t := by
  obtain ⟨self, dn, hn, rfl⟩ := loop_eq_some h
  simp only [ReloadLoop.next] at hn
  split at hn
  · next update hsel hchannel =>
      cases hn
      cases update with
      | connection o =>
        by_cases hready : o.state = .connected ∨ o.state = .recovered
        · -- a reconciliation begins, which every hint so far was published before
          have hhandle : ({ s.self with channel := none } : ReloadLoop).handle settings s.published.length
              (.connection o) = { s.self with channel := none, phase := .reconciling s.published.length } :=
            if_pos ⟨hready, hr⟩
          rw [hhandle]
          refine ⟨inv.sending, fun _ => inv.linked (by rw [hsel]; intro h; cases h), ?_, ?_⟩
          · nofun
          · exact fun hint hp _ => .inr (.running rfl (serial_lt hp))
        · have hhandle : ({ s.self with channel := none } : ReloadLoop).handle settings s.published.length
              (.connection o) = { s.self with channel := none } :=
            if_neg fun h => hready h.1
          rw [hhandle]
          refine ⟨inv.sending, inv.linked, inv.works, ?_⟩
          intro hint hp hc
          rcases inv.accounted hint hp hc with hw | hh
          · refine .inl ?_
            cases hw with
            | reconnecting r => exact .reconnecting r
            | announced put rd =>
              rw [hchannel] at put
              cases put
              exact absurd rd hready
            | losing av f => exact .losing av f
            | queued av q => exact .queued av q
            | inHand sn => exact .inHand sn
            | inChannel put =>
              rw [hchannel] at put
              cases put
          · exact .inr hh
      | item fr =>
        have hw : ∀ hint, hint ≠ fr → OnTheWay hint s.self.supervisor.phase s.self.channel s.transport →
            OnTheWay hint s.self.supervisor.phase none s.transport := by
          intro hint ho hw
          cases hw with
          | reconnecting r => exact .reconnecting r
          | announced put rd =>
            rw [hchannel] at put
            cases put
            exact rd.elim
          | losing av f => exact .losing av f
          | queued av q => exact .queued av q
          | inHand sn => exact .inHand sn
          | inChannel put =>
            rw [hchannel] at put
            cases put
            exact absurd rfl ho
        cases hignores : settings.config.ignores fr.message with
        | some d =>
          have hhandle : ({ s.self with channel := none } : ReloadLoop).handle settings s.published.length
              (.item fr) = { s.self with channel := none } := by
            rw [ReloadLoop.handle, hignores]
          rw [hhandle]
          refine ⟨inv.sending, inv.linked, inv.works, ?_⟩
          intro hint hp hc
          have ho : hint ≠ fr := by
            rintro rfl
            rw [(settings.config.ignores_eq_none _).mpr hc] at hignores
            cases hignores
          exact (inv.accounted hint hp hc).imp (hw hint ho) id
        | none =>
          have hhandle : ({ s.self with channel := none } : ReloadLoop).handle settings s.published.length
              (.item fr) = { s.self with channel := none, phase := .reloading fr } := by
            rw [ReloadLoop.handle, hignores]
          rw [hhandle]
          refine ⟨inv.sending, fun _ => inv.linked (by rw [hsel]; intro h; cases h), ?_, ?_⟩
          · nofun
          · intro hint hp hc
            by_cases ho : hint = fr
            · exact .inr (.reloading (ho ▸ rfl))
            · rcases inv.accounted hint hp hc with hb | hh
              · exact .inl (hw hint ho hb)
              · refine .inr ?_
                rw [hsel] at hh
                cases hh with
                | covered c => exact .covered c
                | reloading rl => cases rl
                | running rn b => cases rn
                | owed i due => exact .owed rfl due
                | returned rt => cases rt
  · cases hn

lemma SyncInv.retried (inv : SyncInv settings s) (hr : settings.reconciles = true)
    (h : s.loop settings s.transport .retryDue = some t) : SyncInv settings t := by
  obtain ⟨self, d, hn, rfl⟩ := loop_eq_some h
  simp only [ReloadLoop.next] at hn
  split at hn
  · next deadline hsel hdead =>
      split at hn
      · cases hn
        have hwork : s.self.retryWork settings s.published.length = .reconcile s.published.length :=
          if_pos hr
        rw [hwork]
        refine ⟨inv.sending, fun _ => inv.linked (by rw [hsel]; intro h; cases h), ?_, ?_⟩
        · intro w hp
          cases hp
          exact ⟨_, rfl⟩
        · exact fun hint hpb _ => .inr (.running rfl (serial_lt hpb))
      · cases hn
  · cases hn

/-- A reconciliation comes to an end, and covers what was published before it began, or is owed again. -/
lemma Handled.settled {b : ℕ}
    (hr : self.phase.running = some b) (h : Handled hint self.phase self.retry record) (now : ℕ)
    (sc : Bool) (d : ℕ) :
    Handled hint .selecting (if sc then .default else self.retry.schedule settings.policy now d)
      (.reconciled b sc :: record) := by
  cases sc with
  | false => exact .owed rfl (schedule_isSome _ _ _ _)
  | true =>
    cases h with
    | covered c => exact .covered (c.mono [_])
    | reloading r =>
      rw [r] at hr
      cases hr
    | running rn bf =>
      cases rn.symm.trans hr
      exact .covered (.inr ⟨b, mem_cons_self, bf⟩)
    | owed i due =>
      rw [i] at hr
      cases hr
    | returned rt =>
      rw [rt] at hr
      cases hr

lemma SyncInv.finished (inv : SyncInv settings s) {sc : Bool} {d : ℕ} (h : s.loop settings s.transport (.callback sc d) = some t) :
    SyncInv settings t := by
  obtain ⟨self, dn, hn, rfl⟩ := loop_eq_some h
  simp only [ReloadLoop.next, ReloadLoop.finish] at hn
  have hlinked : s.self.phase ≠ .returned → Subscribed s.self.supervisor.phase → s.transport.isSome = true :=
    inv.linked
  have hsettled : ∀ {b}, s.self.phase.running = some b →
      SyncInv settings { s with
        self := s.self.settleRetry settings s.now sc d
        record := [.reconciled b sc] ++ s.record } := by
    intro b hrun
    refine ⟨inv.sending, fun _ => hlinked ?_, nofun, ?_⟩
    · intro h
      rw [h] at hrun
      cases hrun
    · exact fun hint hp hc => (inv.accounted hint hp hc).imp id fun hh => hh.settled hrun s.now sc d
  split at hn
  · next b hphase =>
      cases hn
      exact hsettled (by rw [hphase]; rfl)
  · next w hphase =>
      obtain ⟨b, rfl⟩ := inv.works w hphase
      split at hn
      · cases hn
        exact hsettled (by rw [hphase]; rfl)
      · cases hn
  · next fr hphase =>
      cases hn
      refine ⟨inv.sending, fun _ => hlinked (by rw [hphase]; intro h; cases h), ?_, ?_⟩
      · nofun
      · intro hint hp hc
        refine (inv.accounted hint hp hc).imp id fun hh => ?_
        cases sc with
        | false => exact .owed rfl (schedule_isSome _ _ _ _)
        | true =>
          rw [hphase] at hh
          cases hh with
          | covered c => exact .covered (c.mono [_])
          | reloading r =>
            cases r
            exact .covered (.inl mem_cons_self)
          | running rn bf => cases rn
          | owed i due => exact .owed rfl due
          | returned rt => cases rt
  · cases hn
  · cases hn

lemma OnTheWay.published (h : OnTheWay hint phase ch tr) : OnTheWay hint phase ch (tr.map (deliver fr l)) := by
  cases h with
  | reconnecting r => exact .reconnecting r
  | announced put rd => exact .announced put rd
  | losing a f =>
    refine .losing (congrArg _ a) ?_
    rw [deliver]
    split
    · rfl
    · exact f
  | queued a q =>
    refine .queued (congrArg _ a) ?_
    rw [deliver]
    split
    · exact q
    · exact mem_append_left _ q
  | inHand sn => exact .inHand sn
  | inChannel put => exact .inChannel put

lemma SyncInv.announced (inv : SyncInv settings s) (hh : hint = fr) :
    OnTheWay hint s.self.supervisor.phase s.self.channel (s.transport.map (deliver fr l)) ∨
      Handled hint s.self.phase s.self.retry s.record := by
  subst hh
  by_cases hret : s.self.phase = .returned
  · exact .inr (.returned hret)
  by_cases hsubs : Subscribed s.self.supervisor.phase
  · obtain ⟨sb, ha⟩ := isSome_iff_exists.mp (inv.linked hret hsubs)
    rw [ha]
    cases l with
    | true => exact .inl (.losing rfl rfl)
    | false => exact .inl (.queued rfl (mem_append_right _ (mem_singleton_self hint)))
  · exact .inl (.reconnecting (reconnecting_of_not_subscribed hsubs))

/-- **Every step keeps every hint accounted for.** -/
theorem SyncInv.step (inv : SyncInv settings s) (hr : settings.reconciles = true) {event : SyncEvent}
    (h : SyncStep settings s event t) : SyncInv settings t := by
  cases event with
  | wait dr =>
    cases h
    exact ⟨inv.sending, inv.linked, inv.works, inv.accounted⟩
  | publish m l =>
    cases h
    refine ⟨inv.sending, fun hph hs => ?_, inv.works, ?_⟩
    · rw [isSome_map]
      exact inv.linked hph hs
    · intro hint hp hc
      by_cases hold : hint.serial < s.published.length
      · rw [List.getElem?_append_left hold] at hp
        exact (inv.accounted hint hp hc).imp OnTheWay.published id
      · have hhint : hint = ⟨s.published.length, m⟩ := by
          rw [List.getElem?_append_right (Nat.le_of_not_lt hold)] at hp
          obtain ⟨hlt, hm⟩ := List.getElem?_eq_some_iff.mp hp
          have hserial : hint.serial = s.published.length := by
            rw [List.length_singleton] at hlt
            omega
          rw [List.getElem_singleton] at hm
          rw [hm, ← hserial]
        exact inv.announced hhint
  | overrun dp =>
    obtain ⟨sb, ha, rfl⟩ := map_eq_some_iff.mp h
    refine ⟨inv.sending, fun _ _ => rfl, inv.works, ?_⟩
    exact fun hint hp hc => .inl (.losing rfl rfl)
  | subscribed => exact inv.supervised h rfl
  | subscribeFailed d => exact inv.supervised h rfl
  | received =>
    simp only [SyncStep, ConfigSync.next] at h
    split at h
    · next hint queue failed ha => exact inv.supervised h ⟨queue, failed, ha, rfl⟩
    · cases h
  | receiveFailed d => exact inv.supervised h trivial
  | sent => exact inv.supervised h rfl
  | woke => exact inv.supervised h rfl
  | recv => exact inv.received hr h
  | retryDue => exact inv.retried hr h
  | callback sc d => exact inv.finished h
  | shutdown =>
    obtain ⟨self, dn, hn, rfl⟩ := loop_eq_some h
    simp only [ReloadLoop.next] at hn
    split at hn
    · cases hn
    · cases hn
      refine ⟨inv.sending, fun hph => absurd rfl hph, ?_, ?_⟩
      · nofun
      · exact fun hint _ _ => .inr (.returned rfl)

/-! ## Hints that failed -/

/-- The failures that no retry made up for: no later one that succeeded asked for as much. -/
def unsettled : List SyncRecord → List ConfigReloadMessage
  | [] => []
  | .reloaded hint false :: record => hint.message :: unsettled record
  | .retried message true :: record => (unsettled record).filter fun failed => ¬ Covers message failed
  | .reloaded _ true :: record | .reconciled .. :: record | .retried _ false :: record => unsettled record

def ActedOn (settings : ReloadSettings) (record : List SyncRecord) : Prop :=
  (∀ hint succeeded, .reloaded hint succeeded ∈ record → settings.config.Concerns hint.message) ∧
    ∀ message succeeded, .retried message succeeded ∈ record → settings.config.Concerns message

/-- What is kept for a retry: all that failed, within the bound, and due unless it is being retried. -/
structure Keeping (settings : ReloadSettings) (phase : LoopPhase) (retry : ConfigReloadRetry)
    (record : List SyncRecord) : Prop where
  covered : ∀ failed ∈ unsettled record, ∃ pending, retry.message = some pending ∧ Covers pending failed
  due : phase ≠ .returned → ∀ pending, retry.message = some pending →
    retry.deadline.isSome = true ∨ phase = .retrying (.reload pending)
  noReconcile : phase.running = none

structure LoopInv (settings : ReloadSettings) (phase : LoopPhase) (retry : ConfigReloadRetry)
    (record : List SyncRecord) : Prop where
  acted : ActedOn settings record
  reloading : ∀ hint, phase = .reloading hint → settings.config.Concerns hint.message
  pending : ∀ pending, retry.message = some pending →
    pending.keys.length ≤ maxPendingKeys ∧ settings.config.Concerns pending
  reload : ∀ message, phase = .retrying (.reload message) → retry.message = some message
  nothing : phase = .retrying .nothing → retry.message = none
  keeping : settings.reconciles = false → Keeping settings phase retry record

section

variable {ph : LoopPhase} {r : ConfigReloadRetry} {rc : List SyncRecord}

lemma Keeping.isDue (h : Keeping settings .selecting r rc) {p : ConfigReloadMessage}
    (hpn : r.message = some p) : r.deadline.isSome = true := by
  rcases h.due nofun p hpn with hd | hp
  · exact hd
  · cases hp

variable {rc' : List SyncRecord}

lemma LoopInv.waiting {r' : ConfigReloadRetry} (a : ActedOn settings rc')
    (p : ∀ p, r'.message = some p → p.keys.length ≤ maxPendingKeys ∧ settings.config.Concerns p)
    (k : settings.reconciles = false →
      (∀ f ∈ unsettled rc', ∃ p, r'.message = some p ∧ Covers p f) ∧
        ∀ p, r'.message = some p → r'.deadline.isSome = true) :
    LoopInv settings .selecting r' rc' where
  acted := a
  reloading := nofun
  pending := p
  reload := nofun
  nothing := nofun
  keeping := fun hno => ⟨(k hno).1, fun _ p h => .inl ((k hno).2 p h), rfl⟩

lemma ActedOn.cons_reconciled (h : ActedOn settings rc) (b : ℕ) (sc : Bool) :
    ActedOn settings (.reconciled b sc :: rc) := by
  refine ⟨fun hint o hm => ?_, fun m o hm => ?_⟩
  · rcases mem_cons.mp hm with heq | hm
    · cases heq
    · exact h.1 hint o hm
  · rcases mem_cons.mp hm with heq | hm
    · cases heq
    · exact h.2 m o hm

lemma ActedOn.cons_reloaded (h : ActedOn settings rc) {hn : Hint}
    (hc : settings.config.Concerns hn.message) (sc : Bool) : ActedOn settings (.reloaded hn sc :: rc) := by
  refine ⟨fun o r hm => ?_, fun m r hm => ?_⟩
  · rcases mem_cons.mp hm with heq | hm
    · cases heq
      exact hc
    · exact h.1 o r hm
  · rcases mem_cons.mp hm with heq | hm
    · cases heq
    · exact h.2 m r hm

lemma ActedOn.cons_retried (h : ActedOn settings rc) {m : ConfigReloadMessage}
    (hc : settings.config.Concerns m) (sc : Bool) : ActedOn settings (.retried m sc :: rc) := by
  refine ⟨fun hint r hm => ?_, fun o r hm => ?_⟩
  · rcases mem_cons.mp hm with heq | hm
    · cases heq
    · exact h.1 hint r hm
  · rcases mem_cons.mp hm with heq | hm
    · cases heq
      exact hc
    · exact h.2 o r hm

lemma LoopInv.settled (inv : LoopInv settings ph r rc) (a : ActedOn settings rc') (now : ℕ) (sc : Bool) (d : ℕ)
    (hu : settings.reconciles = false → unsettled rc' = if sc then [] else unsettled rc) :
    LoopInv settings .selecting (if sc then .default else r.schedule settings.policy now d) rc' := by
  cases sc with
  | true =>
    refine .waiting a nofun fun hno => ⟨?_, nofun⟩
    rw [hu hno]
    intro f h
    cases h
  | false =>
    refine .waiting a ?_ fun hno => ⟨?_, fun _ _ => schedule_isSome _ _ _ _⟩
    · intro p hp
      exact inv.pending p (schedule_message .. ▸ hp)
    · rw [hu hno]
      intro f hf
      obtain ⟨p, hp, hc⟩ := (inv.keeping hno).covered f hf
      exact ⟨p, (schedule_message ..).trans hp, hc⟩

variable {sl : ReloadLoop}

lemma LoopInv.kept (inv : LoopInv settings sl.phase sl.retry rc) {ht : Hint}
    (hc : settings.config.Concerns ht.message) (now d : ℕ) :
    LoopInv settings .selecting (sl.keep settings now d ht.message) (.reloaded ht false :: rc) := by
  obtain ⟨m, hm, hb, hn, ho, hcv, hk⟩ :=
    covers_mergeMessage sl.retry ht.message
  cases hrecon : settings.reconciles with
  | true =>
    have hkeep : sl.keep settings now d ht.message = sl.retry.schedule settings.policy now d := by
      rw [keep, if_pos hrecon]
    rw [hkeep]
    refine .waiting (inv.acted.cons_reloaded hc false) ?_ fun hno => ?_
    · intro p hp
      exact inv.pending p (schedule_message .. ▸ hp)
    · rw [hrecon] at hno
      cases hno
  | false =>
    have hkeep : sl.keep settings now d ht.message =
        (sl.retry.mergeMessage ht.message).schedule settings.policy now d := by
      rw [keep, if_neg (Bool.eq_false_iff.mp hrecon)]
    have hmsg : (sl.keep settings now d ht.message).message = some m := by
      rw [hkeep, schedule_message, hm]
    refine .waiting (inv.acted.cons_reloaded hc false) ?_ fun hno => ⟨?_, ?_⟩
    · intro p hp
      rw [hmsg] at hp
      cases hp
      exact ⟨hb, hn.trans hc.1, fun hl => hc.2 (ho.symm.trans hl)⟩
    · intro f hf
      rcases mem_cons.mp hf with rfl | hbf
      · exact ⟨m, hmsg, hcv⟩
      · obtain ⟨p, hp, h⟩ := (inv.keeping hno).covered f hbf
        exact ⟨m, hmsg, hk p f hp h⟩
    · intro p _
      exact schedule_isSome _ _ _ _

variable {after : ReloadLoop}

lemma LoopInv.finished {dn : List SyncRecord} {now : ℕ} {sc : Bool} {d : ℕ}
    (inv : LoopInv settings sl.phase sl.retry rc) (h : sl.finish settings now sc d = some (after, dn)) :
    LoopInv settings after.phase after.retry (dn ++ rc) := by
  simp only [finish] at h
  split at h
  · next b hphase =>
      cases h
      refine inv.settled (inv.acted.cons_reconciled b sc) now sc d fun hno => ?_
      have hrunn := (inv.keeping hno).noReconcile
      rw [hphase] at hrunn
      cases hrunn
  · next work hphase =>
      split at h
      · cases h
        cases work with
        | reconcile b =>
          refine inv.settled (inv.acted.cons_reconciled b sc) now sc d fun hno => ?_
          have hrunn := (inv.keeping hno).noReconcile
          rw [hphase] at hrunn
          cases hrunn
        | reload m =>
          have hmsg := inv.reload m hphase
          refine inv.settled (inv.acted.cons_retried (inv.pending m hmsg).2 sc) now sc d fun hno => ?_
          cases sc with
          | false => rfl
          | true =>
            -- what the retry reloaded covers all that failed before
            refine filter_eq_nil_iff.mpr fun f hf => ?_
            obtain ⟨p, hp, hc⟩ := (inv.keeping hno).covered f hf
            rw [hmsg, some.injEq] at hp
            simpa [hp] using hc
        | nothing =>
          refine inv.settled inv.acted now sc d fun hno => ?_
          have hnone := inv.nothing hphase
          have hempty : unsettled rc = [] := by
            refine eq_nil_iff_forall_not_mem.mpr fun f hf => ?_
            obtain ⟨p, hp, _⟩ := (inv.keeping hno).covered f hf
            rw [hnone] at hp
            cases hp
          rw [hempty, ite_self]
      · cases h
  · next hint hphase =>
      cases h
      have hconc := inv.reloading hint hphase
      cases sc with
      | true =>
        refine .waiting (inv.acted.cons_reloaded hconc true) inv.pending fun hno => ?_
        refine ⟨(inv.keeping hno).covered, fun p hp => ?_⟩
        rcases (inv.keeping hno).due (by rw [hphase]; intro h; cases h) p hp with hd | hr
        · exact hd
        · rw [hphase] at hr
          cases hr
      | false => exact inv.kept hconc now d
  · cases h
  · cases h

lemma LoopInv.handled (inv : LoopInv settings .selecting sl.retry rc)
    (hs : sl.phase = .selecting) (p : ℕ) (u : Update) :
    LoopInv settings (({ sl with channel := none } : ReloadLoop).handle settings p u).phase
      (({ sl with channel := none } : ReloadLoop).handle settings p u).retry rc := by
  cases u with
  | connection o =>
    rw [handle]
    split
    · next hready =>
        refine ⟨inv.acted, ?_, inv.pending, ?_, ?_, fun hno => ?_⟩
        · nofun
        · nofun
        · nofun
        · rw [hready.2] at hno
          cases hno
    · rw [hs]
      exact inv
  | item hint =>
    rw [handle]
    split
    · rw [hs]
      exact inv
    · next hignores =>
        refine ⟨inv.acted, ?_, inv.pending, ?_, ?_, fun hno => ?_⟩
        · rintro ot ⟨⟩
          exact (settings.config.ignores_eq_none _).mp hignores
        · nofun
        · nofun
        · exact ⟨(inv.keeping hno).covered, fun _ pn h => .inl ((inv.keeping hno).isDue h), rfl⟩

lemma LoopInv.retrying (inv : LoopInv settings .selecting sl.retry rc) (p : ℕ) :
    LoopInv settings (.retrying (sl.retryWork settings p)) { sl.retry with deadline := none } rc := by
  rw [retryWork]
  split
  · next hrecon =>
      refine ⟨inv.acted, ?_, inv.pending, ?_, ?_, fun hno => ?_⟩
      · nofun
      · nofun
      · nofun
      · rw [hrecon] at hno
        cases hno
  · split
    · next m hmsg =>
        refine ⟨inv.acted, ?_, inv.pending, ?_, ?_, fun hno => ⟨(inv.keeping hno).covered, ?_, rfl⟩⟩
        · nofun
        · rintro o ⟨⟩
          exact hmsg
        · nofun
        · intro _ pn hp
          cases hmsg.symm.trans hp
          exact .inr rfl
    · next hnone =>
        refine ⟨inv.acted, ?_, inv.pending, ?_, fun _ => hnone, fun hno => ⟨(inv.keeping hno).covered, ?_, rfl⟩⟩
        · nofun
        · nofun
        · intro _ pn hp
          cases hnone.symm.trans hp

/-- **Every step of the loop keeps what failed.** -/
theorem LoopInv.step {d : List SyncRecord} {now p : ℕ} {event : LoopEvent}
    (inv : LoopInv settings sl.phase sl.retry rc) (h : sl.next settings now p event = some (after, d)) :
    LoopInv settings after.phase after.retry (d ++ rc) := by
  cases event with
  | supervisor event =>
    simp only [ReloadLoop.next] at h
    split at h
    · obtain ⟨s', hs, heq⟩ := map_eq_some_iff.mp h
      cases heq
      obtain ⟨sp, u, _, ⟨_, rfl⟩ | ⟨put, _, _, rfl⟩⟩ := supervise_eq_some hs
      · exact inv
      · exact inv
    · cases h
  | recv =>
    simp only [ReloadLoop.next] at h
    split at h
    · next u hsel hchannel =>
        cases h
        rw [hsel] at inv
        exact inv.handled hsel p u
    · cases h
  | retryDue =>
    simp only [ReloadLoop.next] at h
    split at h
    · next deadline hsel hdead =>
        split at h
        · cases h
          rw [hsel] at inv
          exact inv.retrying p
        · cases h
    · cases h
  | callback sc dr => exact inv.finished h
  | shutdown =>
    simp only [ReloadLoop.next] at h
    split at h
    · cases h
    · cases h
      refine ⟨inv.acted, ?_, inv.pending, ?_, ?_, fun hno => ⟨(inv.keeping hno).covered, ?_, rfl⟩⟩
      · nofun
      · nofun
      · nofun
      · exact fun h => absurd rfl h

end

/-! ## What is promised -/

/-- There is nothing left to do: nothing is on its way, nothing runs, no retry is due, and there is a
subscription. -/
structure Settled (s : ConfigSync) : Prop where
  waiting : s.self.phase = .selecting
  notDue : s.self.retry.deadline = none
  empty : s.self.channel = none
  receiving : s.self.supervisor.phase = .receiving
  quiet : s.transport = some ⟨[], false⟩

instance (s : ConfigSync) : Decidable (Settled s) :=
  decidable_of_iff (s.self.phase = .selecting ∧ s.self.retry.deadline = none ∧ s.self.channel = none ∧
      s.self.supervisor.phase = .receiving ∧ s.transport = some ⟨[], false⟩)
    ⟨fun h => ⟨h.1, h.2.1, h.2.2.1, h.2.2.2.1, h.2.2.2.2⟩,
      fun h => ⟨h.waiting, h.notDue, h.empty, h.receiving, h.quiet⟩⟩

/-- No hint is forgotten. -/
structure NeverForgets (settings : ReloadSettings) (s : ConfigSync) : Prop where
  /-- With a reconciliation: where nothing is left to do, every hint that concerns the process is covered. -/
  covered : settings.reconciles = true → Settled s →
    ∀ hint, s.published[hint.serial]? = some hint.message → settings.config.Concerns hint.message →
    CoveredBy s.record hint
  /-- Without one: what failed is covered by the pending message, which is due or being retried. -/
  kept : settings.reconciles = false → s.self.phase ≠ .returned → ∀ failed ∈ unsettled s.record,
    ∃ pending, s.self.retry.message = some pending ∧ Covers pending failed ∧
      pending.keys.length ≤ maxPendingKeys ∧
      (s.self.retry.deadline.isSome = true ∨ s.self.phase = .retrying (.reload pending))
  acted : ActedOn settings s.record

lemma SyncInv.new : SyncInv settings .new where
  sending := trivial
  linked := fun _ hs => hs.elim
  works := nofun
  accounted := nofun

lemma LoopInv.new : LoopInv settings .selecting .default [] := by
  refine .waiting ⟨?_, ?_⟩ ?_ fun _ => ⟨?_, ?_⟩
  · nofun
  · nofun
  · nofun
  · nofun
  · nofun

lemma LoopInv.syncStep {event : SyncEvent} (inv : LoopInv settings s.self.phase s.self.retry s.record)
    (h : SyncStep settings s event t) : LoopInv settings t.self.phase t.self.retry t.record := by
  have hloop : ∀ tr event, s.loop settings tr event = some t →
      LoopInv settings t.self.phase t.self.retry t.record := by
    intro tr event h
    obtain ⟨self, dn, hn, rfl⟩ := loop_eq_some h
    exact inv.step hn
  cases event with
  | wait dr =>
    cases h
    exact inv
  | publish m l =>
    cases h
    exact inv
  | overrun dp =>
    obtain ⟨sb, _, rfl⟩ := map_eq_some_iff.mp h
    exact inv
  | received =>
    simp only [SyncStep, ConfigSync.next] at h
    split at h
    · exact hloop _ _ h
    · cases h
  | subscribed => exact hloop _ _ h
  | subscribeFailed d => exact hloop _ _ h
  | receiveFailed d => exact hloop _ _ h
  | sent => exact hloop _ _ h
  | woke => exact hloop _ _ h
  | recv => exact hloop _ _ h
  | retryDue => exact hloop _ _ h
  | callback sc d => exact hloop _ _ h
  | shutdown => exact hloop _ _ h

lemma SyncInv.covered (inv : SyncInv settings s) (hs : Settled s) {h : Hint}
    (hp : s.published[h.serial]? = some h.message)
    (hc : settings.config.Concerns h.message) : CoveredBy s.record h := by
  rcases inv.accounted h hp hc with hw | hh
  · rw [hs.receiving, hs.empty, hs.quiet] at hw
    cases hw with
    | reconnecting r => exact r.elim
    | announced put rd => cases put
    | losing a f =>
      cases a
      cases f
    | queued a q =>
      cases a
      cases q
    | inHand sn => cases sn
    | inChannel put => cases put
  · rw [hs.waiting] at hh
    cases hh with
    | covered c => exact c
    | reloading rl => cases rl
    | running rn b => cases rn
    | owed i due =>
      rw [hs.notDue] at due
      cases due
    | returned rt => cases rt

/-- **No hint is forgotten**, whatever is published and lost, however often connections and callbacks fail,
and in whatever order. -/
theorem config_sync_never_forgets {events : List SyncEvent}
    (h : Run (SyncStep settings) new events s) : NeverForgets settings s := by
  have hinv : LoopInv settings s.self.phase s.self.retry s.record :=
    h.invariant (I := fun s => LoopInv settings s.self.phase s.self.retry s.record)
      (fun _ _ _ inv hs => inv.syncStep hs) .new
  refine ⟨fun hr hst hint hpb hcn => ?_, fun hno hph f hf => ?_, hinv.acted⟩
  · have hsync : SyncInv settings s :=
      h.invariant (fun _ _ _ inv hs => SyncInv.step inv hr hs) .new
    exact hsync.covered hst hpb hcn
  · obtain ⟨p, hp, hc⟩ := (hinv.keeping hno).covered f hf
    exact ⟨p, hp, hc, (hinv.pending p hp).1, (hinv.keeping hno).due hph p hp⟩

/-! ## Runs -/

/-- A process `r` of the namespace `a`. -/
def settingsOf (reconciles : Bool) : ReloadSettings :=
  ⟨⟨['a'], ['r']⟩, defaultConfigReloadReconnectPolicy, reconciles⟩

/-- A hint of another process. -/
def foreignMessage : ConfigReloadMessage := ⟨['a'], ['q'], [['k']], .api⟩

/-- A hint is published while the supervisor says that it is connected, and is reloaded after the
reconciliation that follows. -/
def reconciledAndReloaded : List SyncEvent :=
  [.subscribed, .sent, .publish foreignMessage false, .recv, .callback true 0, .received, .sent, .recv,
    .callback true 0]

theorem config_sync_never_forgets_reloaded :
    ∃ s, execute (next (settingsOf true)) .new reconciledAndReloaded = some s ∧ Settled s ∧
      NeverForgets (settingsOf true) s := by
  have hobs : (execute (next (settingsOf true)) .new reconciledAndReloaded).map
      (fun s => decide (Settled s)) = some true := by decide +kernel
  obtain ⟨s, hs, hst⟩ := map_eq_some_iff.mp hobs
  have hrun : Run (SyncStep (settingsOf true)) new reconciledAndReloaded s := run_of_execute hs
  exact ⟨s, hs, of_decide_eq_true hst, config_sync_never_forgets hrun⟩

def failedAndRetrying : List SyncEvent :=
  [.subscribed, .sent, .recv, .publish foreignMessage false, .received, .sent, .recv, .callback false 0,
    .wait (30 * second), .retryDue]

/-- **While a retry runs, no deadline is pending**: it was taken away before the callback began. -/
theorem retry_deadline_counterexample :
    ¬ ∀ (settings : ReloadSettings) (events : List SyncEvent) (s : ConfigSync),
        Run (SyncStep settings) new events s → settings.reconciles = false →
        ∀ failed ∈ unsettled s.record, s.self.retry.deadline.isSome = true ∧
          ∃ pending, s.self.retry.message = some pending ∧ Covers pending failed ∧
            pending.keys.length ≤ maxPendingKeys := by
  intro h
  have hobs : (execute (next (settingsOf false)) .new failedAndRetrying).map
      (fun s => (unsettled s.record, s.self.retry.deadline)) = some ([foreignMessage], none) := by
    decide +kernel
  obtain ⟨s, hs, hsn⟩ := map_eq_some_iff.mp hobs
  obtain ⟨hu, hd⟩ := Prod.mk.inj hsn
  have hdue := (h _ _ s (run_of_execute hs) rfl foreignMessage (hu ▸ mem_singleton_self _)).1
  rw [hd] at hdue
  cases hdue

end AsterForge.Config
