import GoalFlight.Journal.Fence

/-!
# Retiring a controller

`release_lease` moves the retired label's unread assignments to the wildcard, without loss exactly
when each of them is *rehomable*: the wildcard carries its event live already, or has never carried
it and has nothing live at its position.  A withdrawn wildcard row of the event refuses the move
and aborts the release; a live wildcard of another event at the position gets the assignment
withdrawn as a duplicate.
-/

namespace GoalFlight

open Relational

variable {r : DeliveryEvent}

/-- The wildcard carries the event live. -/
def DeliveryTable.WildcardCarries (t : DeliveryTable) (event : EventId) : Prop :=
  ∃ w ∈ t, w.recipient = .wildcard ∧ w.Live ∧ w.event = event

instance (t : DeliveryTable) (event : EventId) : Decidable (t.WildcardCarries event) := by
  unfold DeliveryTable.WildcardCarries
  infer_instance

/-- An assignment that retirement can move without loss. -/
def DeliveryTable.Rehomable (t : DeliveryTable) (r : DeliveryEvent) : Prop :=
  t.WildcardCarries r.event ∨ ∀ w ∈ t, w.recipient = .wildcard →
    w.event ≠ r.event ∧ ¬ (w.Live ∧ w.position = r.position)

instance (t : DeliveryTable) (r : DeliveryEvent) : Decidable (t.Rehomable r) := by
  unfold DeliveryTable.Rehomable
  infer_instance

/-- A retirement that neither fails nor loses mail: it commits, every unread assignment's
event is live for the wildcard afterwards, and every other row is as it was. -/
def Journal.RetiresCleanly (j : Journal) (label : Label) (nonce reason : String)
    (now : Timestamp) : Prop :=
  ∃ v j', j.releaseLease label nonce reason now = .ok (v, j') ∧
    (∀ r ∈ j.delivery, j.RehomeCandidate label r → j'.delivery.WildcardCarries r.event) ∧
    ∀ r ∈ j.delivery, ¬ j.RehomeCandidate label r → r ∈ j'.delivery

instance (j : Journal) (label : Label) (nonce reason : String) (now : Timestamp) :
    Decidable (j.RetiresCleanly label nonce reason now) :=
  match h : j.releaseLease label nonce reason now with
  | .error _ => isFalse (by
      rintro ⟨v, j', h', -⟩
      rw [h] at h'
      cases h')
  | .ok (v, j') =>
    decidable_of_iff
      ((∀ r ∈ j.delivery, j.RehomeCandidate label r →
          j'.delivery.WildcardCarries r.event) ∧
        ∀ r ∈ j.delivery, ¬ j.RehomeCandidate label r → r ∈ j'.delivery)
      ⟨fun hp => ⟨v, j', h, hp⟩, by
        rintro ⟨_, _, h', hp⟩
        rw [h] at h'
        cases h'
        exact hp⟩

section Rehome

variable {j : Journal} (label : Label) (now : Timestamp)

/-- The row between the two updates: a candidate the wildcard carries is withdrawn. -/
def Journal.afterWithdrawal (j : Journal) (label : Label) (now : Timestamp) : Journal :=
  { j with
    delivery := j.delivery.withdrawWhere
      (fun r => j.RehomeCandidate label r ∧ j.CarriedByWildcard r) now }

theorem candidate_afterWithdrawal :
    (r ∈ (j.afterWithdrawal label now).delivery ∧
        (j.afterWithdrawal label now).RehomeCandidate label r) ↔
      r ∈ j.delivery ∧ j.RehomeCandidate label r ∧ ¬ j.CarriedByWildcard r := by
  constructor
  · rintro ⟨hr, hcand⟩
    obtain ⟨hmem, hlive, hnot⟩ :=
      DeliveryTable.mem_withdrawWhere_live.mp ⟨hr, hcand.2.1⟩
    exact ⟨hmem, hcand, fun hcarried => hnot ⟨hcand, hcarried⟩⟩
  · rintro ⟨hr, hcand, hnot⟩
    exact ⟨(DeliveryTable.mem_withdrawWhere_live.mpr
      ⟨hr, hcand.2.1, fun hsel => hnot (And.right hsel)⟩).1, hcand⟩

theorem mem_afterWithdrawal (hr : r ∈ j.delivery)
    (hnot : ¬ (j.RehomeCandidate label r ∧ j.CarriedByWildcard r)) :
    r ∈ (j.afterWithdrawal label now).delivery := by
  have hmem := Table.apply_mem (DeliveryTable.rows_withdrawWhere j.delivery
    (fun r => j.RehomeCandidate label r ∧ j.CarriedByWildcard r) now) hr
  rwa [if_neg hnot] at hmem

theorem wildcard_afterWithdrawal {w : DeliveryEvent} (hw : w ∈ j.delivery)
    (hrec : w.recipient = .wildcard) : w ∈ (j.afterWithdrawal label now).delivery := by
  refine mem_afterWithdrawal label now hw fun h => ?_
  have hlabel := h.1.1
  rw [hrec] at hlabel
  cases hlabel

theorem wildcard_of_afterWithdrawal {w : DeliveryEvent}
    (hw : w ∈ (j.afterWithdrawal label now).delivery) (hrec : w.recipient = .wildcard) :
    w ∈ j.delivery := by
  obtain ⟨r, hr, rfl⟩ := Table.exists_of_mem hw rfl
  split at hrec
  · rename_i hsel
    have hlabel := hsel.1.1
    have hwild : r.recipient = .wildcard := hrec
    rw [hwild] at hlabel
    cases hlabel
  · rwa [if_neg ‹_›]

section

variable {moved : DeliveryTable}
  (h : (j.afterWithdrawal label now).delivery.relabelWhere? ((j.afterWithdrawal label now).RehomeCandidate label) .wildcard = some moved)
include h

theorem rehomable_of_moved
    (hkept : ∀ r ∈ j.delivery, j.RehomeCandidate label r → moved.WildcardCarries r.event) :
    ∀ r ∈ j.delivery, j.RehomeCandidate label r → j.delivery.Rehomable r := by
  intro r hr hcand
  by_cases hcarried : j.CarriedByWildcard r
  · -- `r` was withdrawn, so the live wildcard of its event is not a moved `r`
    left
    obtain ⟨w, hw, hrec, hlive, hev⟩ := hkept r hr hcand
    obtain ⟨s, hs, rfl⟩ := Table.exists_of_mem hw (Table.update?_eq_some h)
    by_cases hsel : (j.afterWithdrawal label now).RehomeCandidate label s
    · rw [if_pos hsel] at hev
      obtain ⟨hs', hcand', hnot⟩ := (candidate_afterWithdrawal label now).mp ⟨hs, hsel⟩
      obtain rfl : s = r :=
        DeliveryTable.eq_of_key hs' hr (hcand'.1.trans hcand.1.symm) hev
      exact absurd hcarried hnot
    · rw [if_neg hsel] at hrec hlive hev
      exact ⟨s, wildcard_of_afterWithdrawal label now hs hrec, hrec, hlive, hev⟩
  · right
    intro w hw hrec
    obtain ⟨hr', hsel⟩ := (candidate_afterWithdrawal label now).mpr ⟨hr, hcand, hcarried⟩
    refine ⟨?_, fun hpos => hcarried ⟨w, hw, hrec, hpos.1, .inr hpos.2⟩⟩
    refine DeliveryTable.event_ne_of_relabelWhere? h hr' (wildcard_afterWithdrawal label now hw hrec)
      hsel (fun hw' => ?_) hrec
    have hlabel := hw'.1
    rw [hrec] at hlabel
    cases hlabel

theorem relabel_mem_moved (hr : r ∈ j.delivery) (hcand : j.RehomeCandidate label r)
    (hnot : ¬ j.CarriedByWildcard r) :
    r.relabel .wildcard ∈ moved := by
  obtain ⟨hr', hsel⟩ := (candidate_afterWithdrawal label now).mpr ⟨hr, hcand, hnot⟩
  have hmem := Table.apply_mem (Table.update?_eq_some h) hr'
  rwa [if_pos hsel] at hmem

end

theorem exists_moved (h : ∀ r ∈ j.delivery, j.RehomeCandidate label r →
      j.delivery.Rehomable r) :
    ∃ moved, (j.afterWithdrawal label now).delivery.relabelWhere?
        ((j.afterWithdrawal label now).RehomeCandidate label) .wildcard = some moved ∧
      ∀ r ∈ j.delivery, j.RehomeCandidate label r → moved.WildcardCarries r.event := by
  have hexists : ∃ moved, (j.afterWithdrawal label now).delivery.relabelWhere?
      ((j.afterWithdrawal label now).RehomeCandidate label) .wildcard = some moved := by
    refine DeliveryTable.exists_relabelWhere? (fun a _ b _ ha hb => ha.1.trans hb.1.symm)
      fun a ha b hb hsel _ hrec => ?_
    obtain ⟨ha', hcand, hnot⟩ := (candidate_afterWithdrawal label now).mp ⟨ha, hsel⟩
    have hb' := wildcard_of_afterWithdrawal label now hb hrec
    rcases h a ha' hcand with ⟨w, hw, hwrec, hlive, hev⟩ | hclear
    · exact absurd ⟨w, hw, hwrec, hlive, .inl hev⟩ hnot
    · obtain ⟨hev, hpos⟩ := hclear b hb' hrec
      exact ⟨hev, fun hlive => hpos ⟨hlive.1, hlive.2.2⟩⟩
  obtain ⟨moved, hmoved⟩ := hexists
  refine ⟨moved, hmoved, fun r hr hcand => ?_⟩
  have hrows := Table.update?_eq_some hmoved
  rcases h r hr hcand with ⟨w, hw, hrec, hlive, hev⟩ | hclear
  · have hw' := Table.apply_mem hrows (wildcard_afterWithdrawal label now
      hw hrec)
    rw [if_neg fun hsel => by
      have hlabel := hsel.1
      rw [hrec] at hlabel
      cases hlabel] at hw'
    exact ⟨w, hw', hrec, hlive, hev⟩
  · have hnot : ¬ j.CarriedByWildcard r := by
      rintro ⟨w, hw, hrec, hlive, hev | hpos⟩
      · exact (hclear w hw hrec).1 hev
      · exact (hclear w hw hrec).2 ⟨hlive, hpos⟩
    exact ⟨_, relabel_mem_moved label now hmoved hr hcand hnot, rfl, hcand.2.1, rfl⟩

theorem mem_moved {moved : DeliveryTable}
    (h : (j.afterWithdrawal label now).delivery.relabelWhere?
      ((j.afterWithdrawal label now).RehomeCandidate label) .wildcard = some moved)
    (hr : r ∈ j.delivery) (hnot : ¬ j.RehomeCandidate label r) :
    r ∈ moved := by
  have hmem := Table.apply_mem (Table.update?_eq_some h)
    (mem_afterWithdrawal label now hr fun hsel => hnot hsel.1)
  have hnot' : ¬ (j.afterWithdrawal label now).RehomeCandidate label r := hnot
  rwa [if_neg hnot'] at hmem

end Rehome

/-- **Retirement.**  Releasing an `ACTIVE` lease commits and keeps the mail exactly when
every assignment it moves is rehomable. -/
theorem releaseLease_retiresCleanly_iff (j : Journal) (l : ControllerLease)
    (hl : l ∈ j.leases) (hactive : l.Active) (reason : String) (now : Timestamp) :
    j.RetiresCleanly l.label l.nonce reason now ↔
      ∀ r ∈ j.delivery, j.RehomeCandidate l.label r → j.delivery.Rehomable r := by
  constructor
  · rintro ⟨v, j', hrelease, hkept, -⟩
    obtain ⟨m, n, i, cursors, -, hrehome, -, rfl⟩ := releaseLease_eq_ok hrelease
    obtain ⟨_, rfl, moved, hmoved, rfl⟩ := Journal.rehomeRetiredDeliveryEvents_eq_ok hrehome
    exact rehomable_of_moved l.label now hmoved hkept
  · intro h
    obtain ⟨moved, hmoved, hkept⟩ := exists_moved l.label now h
    have hfind : (j.leases.find? fun m => m.label = l.label ∧ m.nonce = l.nonce ∧ m.Active) =
        some l := by
      refine Table.find?_eq_of_unique hl (by simpa using hactive) fun m hm hp => ?_
      simp only [decide_eq_true_eq] at hp
      exact Table.eq_of_not_compat hm hl (fun hc => hc.oneActive ⟨hp.2.2, hactive, hp.1⟩)
        (fun hc => hc.oneActive ⟨hactive, hp.2.2, hp.1.symm⟩)
    obtain ⟨n, hrehome⟩ := Journal.rehomeRetiredDeliveryEvents_of_moved
      (j := { j with
        leases := j.leases.endActive l.label l.generation ⟨.retired, now, reason⟩ }) rfl hmoved
    unfold Journal.RetiresCleanly Journal.releaseLease
    simp only [hfind, hrehome, Tx.andThen, Except.bind]
    exact ⟨_, _, rfl, hkept, fun r hr hnot => mem_moved l.label now hmoved hr hnot⟩

/-- One unread assignment, of an event the wildcard never carried, is retired cleanly. -/
theorem releaseLease_retiresCleanly_unread :
    let event : EventId := ⟨"node", "e1"⟩
    let claim : LeaseClaim := ⟨"ctl", ⟨some 1, some "s", none⟩, some "n1", false, none, "f",
      "i", "t0", "t0", "t9"⟩
    let j := Machine.run Journal.step Journal.fresh
      [.claimOrRenewLease claim,
        .recordDeliveryEvent ⟨.label "ctl", event, "d", 1, "/c", "result", .waking, "t1"⟩ []
          false "t1",
        .markDeliveryProjected (.label "ctl") event "t2"]
    j.RetiresCleanly "ctl" "n1" "released" "t3" :=
  (releaseLease_retiresCleanly_iff _ (LeaseClaim.newLease ⟨"ctl", ⟨some 1, some "s", none⟩,
    some "n1", false, none, "f", "i", "t0", "t0", "t9"⟩ 1 none) (by decide +kernel) rfl
    "released" "t3").mpr (by decide +kernel)

/-- Two reachable states in which retirement goes wrong.  In the first, a fan-out retry
has replaced the wildcard of an event by the label's own row: the withdrawn wildcard row
keeps the primary key, and the release is refused.  In the second, another controller's
attention event has been re-homed to `attention/1`, where the label's own, different,
attention event stands: it is withdrawn and no wildcard carries it. -/
theorem releaseLease_not_clean :
    let event : EventId := ⟨"node", "e1"⟩
    let claim (label nonce : String) : JournalOp := .claimOrRenewLease ⟨label,
      ⟨some 1, some "s", none⟩, some nonce, false, none, "f", "i", "t0", "t0", "t9"⟩
    let assign (recipient : Recipient) : List JournalOp :=
      [.recordDeliveryEvent ⟨recipient, event, "d", 1, "/c", "result", .waking, "t1"⟩ [] true
        "t1", .markDeliveryProjected recipient event "t2"]
    let refused := Machine.run Journal.step Journal.fresh
      (assign .wildcard ++ [claim "ctl" "n1"] ++ assign (.label "ctl") ++
        [.reconcileTerminalDeliveryRecipients event [.label "ctl"] "t3"])
    let attempt : JournalOp := .prepareAttempt ⟨"d", none, none, none, true, none, none, none,
      none, "a1", "tok", "t0", "t9"⟩
    let orphan (label nonce item : String) : JournalOp :=
      .expireStaleLeases [⟨label, 1, nonce, "t0", item⟩] "t1"
    let lost := Machine.run Journal.step Journal.fresh
      [attempt, claim "a" "n1", orphan "a" "n1" "i1", claim "a" "n2",
        .releaseLease "a" "n2" "released" "t2", claim "b" "n1", orphan "b" "n1" "i2",
        claim "b" "n2"]
    (refused.HeldBy "ctl" "n1" ∧ ¬ refused.RetiresCleanly "ctl" "n1" "released" "t4" ∧
      (refused.releaseLease "ctl" "n1" "released" "t4").isOk = false) ∧
    lost.HeldBy "b" "n2" ∧ ¬ lost.RetiresCleanly "b" "n2" "released" "t4" ∧
      (lost.releaseLease "b" "n2" "released" "t4").isOk = true := by
  decide +kernel

end GoalFlight
