import GoalFlight.Journal.Operation

/-!
# Claiming a lease with a nonce of one's own

`claim_or_renew_lease` is two transactions: the expiry sweep, and the claim itself; others may
commit between them.  A claim that makes a new generation inserts a lease row, whose nonce must be
new to the label, and looks at the nonce of the generation it has just replaced only; a generation
can also have ended in the sweep, by release or by an earlier takeover.

`claimLease_decided_iff`: the claim is decided exactly when it makes no generation, or the nonce is
one that no other generation of the label ever had.
-/

namespace GoalFlight

open Relational

variable {itemId : String} {j : Journal} {c : LeaseClaim}
  {j' : Journal} {replaced : Option String} {l : ControllerLease}

/-! ### The whole call -/

/-- What the checks before the sweep ask of a principal. -/
def Principal.WellFormed (p : Principal) : Prop :=
  p.pid ≠ some 0 ∧ p.pid.isNone = p.startToken.isNone

instance (p : Principal) : Decidable p.WellFormed := by
  unfold Principal.WellFormed
  infer_instance

/-- The journal the claim's own transaction opens on: the sweep has run, and then the
transactions `others` of other processes. -/
def Journal.openedOn (j : Journal) (provenDead : List ProvenDead) (endedAt : Timestamp)
    (others : List JournalOp) : Journal :=
  match j.expireStaleLeases provenDead endedAt with
  | .ok (_, swept) => Machine.run Journal.step swept others
  | .error _ => j

/-- `claim_or_renew_lease`, with its expiry sweep.  The value is its outcome and the
journal it leaves: a claim that fails leaves the sweep committed. -/
def Journal.claimLease (j : Journal) (provenDead : List ProvenDead) (endedAt : Timestamp)
    (others : List JournalOp) (c : LeaseClaim) : Except Abort ControllerLease × Journal :=
  if ¬ c.principal.WellFormed then ((j.claimOrRenewLease c).map Prod.fst, j)
  else
    match j.expireStaleLeases provenDead endedAt with
    | .error e => (.error e, j)
    | .ok _ =>
      let opened := j.openedOn provenDead endedAt others
      match opened.claimOrRenewLease c with
      | .error e => (.error e, opened)
      | .ok (lease, j') => (.ok lease, j')

/-! ### UUIDs that are new -/

/-- No attention item and no delivery row carries the UUID. -/
structure Journal.ItemUnused (j : Journal) (itemId : String) : Prop where
  attention : ∀ a ∈ j.attention, a.itemId ≠ itemId
  delivery : ∀ r ∈ j.delivery, r.event ≠ ⟨"journal", itemId⟩

/-- The UUIDs a sweep may draw are new and differ from each other. -/
structure Journal.SweepFresh (j : Journal) (provenDead : List ProvenDead) : Prop where
  distinct : (provenDead.map ProvenDead.itemId).Nodup
  unused : ∀ d ∈ provenDead, j.ItemUnused d.itemId

/-- The UUIDs a claim may draw are new. -/
structure Journal.ClaimFresh (j : Journal) (c : LeaseClaim) : Prop where
  item : j.ItemUnused c.itemId
  nonce : ∀ l ∈ j.leases, l.label = c.label → l.nonce ≠ c.freshNonce

theorem Journal.ItemUnused.of_rows {i : Journal} (h : i.ItemUnused itemId)
    (hattention : ∀ a' ∈ j.attention, ∃ a ∈ i.attention, a'.itemId = a.itemId)
    (hdelivery : ∀ r' ∈ j.delivery, ∃ r ∈ i.delivery, r'.event = r.event) :
    j.ItemUnused itemId where
  attention a' ha' := by
    obtain ⟨a, ha, heq⟩ := hattention a' ha'
    rw [heq]
    exact h.attention a ha
  delivery r' hr' := by
    obtain ⟨r, hr, heq⟩ := hdelivery r' hr'
    rw [heq]
    exact h.delivery r hr

theorem Journal.ItemUnused.collapse (h : j.ItemUnused itemId) (label : Label)
    (now : Timestamp) : (j.collapseOpenAttention label now).ItemUnused itemId := by
  refine h.of_rows (fun a' ha' => ?_) fun r' hr' => ?_
  · obtain ⟨a, ha, rfl⟩ := Table.exists_of_mem ha' rfl
    refine ⟨a, ha, ?_⟩
    split <;> rfl
  · obtain ⟨r, hr, rfl⟩ := Table.exists_of_mem hr' rfl
    refine ⟨r, hr, ?_⟩
    split <;> rfl

/-! ### Opening an attention item -/

/-- A row of the attention stream is refused only for its event: its position is beyond
every other one of its recipient. -/
theorem Journal.exists_insert_attentionRow (recipient : Recipient) (carrierPath : String)
    (now : Timestamp) (h : ∀ r ∈ j.delivery, r.event ≠ ⟨"journal", itemId⟩) :
    ∃ delivery, j.delivery.insert? (attentionRow j.delivery.nextRowid recipient itemId
      (j.nextAttentionSeq recipient) carrierPath now) = some delivery := by
  refine Option.ne_none_iff_exists'.mp fun hnone => ?_
  obtain ⟨r, hr, hclash⟩ := Table.insert?_eq_none_iff.mp hnone
  refine hclash ⟨DeliveryTable.rowid_lt_nextRowid hr, fun heq => ?_, fun ⟨_, _, heq⟩ => ?_⟩
  · exact h r hr (congrArg Prod.snd heq)
  · obtain ⟨hrecipient, hposition⟩ := Prod.ext_iff.mp heq
    obtain ⟨hstream, hseq⟩ := Prod.ext_iff.mp hposition
    have hmem : r ∈ j.delivery.rows.filter fun r =>
        r.recipient = recipient ∧ r.streamId = "attention" :=
      List.mem_filter.mpr ⟨hr, by simpa [attentionRow] using ⟨hrecipient, hstream⟩⟩
    have hle : r.streamSeq ≤ ((j.delivery.rows.filter fun r =>
        r.recipient = recipient ∧ r.streamId = "attention").map
          DeliveryEvent.streamSeq).max?.getD 0 :=
      List.le_max?_getD_of_mem (List.mem_map_of_mem hmem)
    have heq' : r.streamSeq = j.nextAttentionSeq recipient := hseq
    unfold Journal.nextAttentionSeq at heq'
    omega

/-- Opening an item commits when the UUID drawn for it is new, keeps every lease, and
uses up no other UUID. -/
theorem Journal.materializeAttention_commits (label : Label) (generation : ℕ)
    (triggerSide : TriggerSide) (reason : String) (now : Timestamp) (h : j.ItemUnused itemId) :
    ∃ j', j.materializeAttention label generation triggerSide reason itemId now =
        .ok ((), j') ∧ j'.leases = j.leases ∧
      ∀ id, id ≠ itemId → j.ItemUnused id → j'.ItemUnused id := by
  unfold Journal.materializeAttention
  split
  · exact ⟨j, rfl, rfl, fun _ _ hid => hid⟩
  · have hc := h.collapse label now
    simp only
    split
    · exact ⟨_, rfl, rfl, fun _ _ hid => hid.collapse label now⟩
    · rename_i hopen
      have hitem : ∃ attention, (j.collapseOpenAttention label now).attention.insert?
          ⟨itemId, label, generation, triggerSide, reason, now, none⟩ = some attention := by
        refine Option.ne_none_iff_exists'.mp fun hnone => ?_
        obtain ⟨a, ha, hclash⟩ := Table.insert?_eq_none_iff.mp hnone
        refine hclash ⟨hc.attention a ha, fun heq => hopen (.inr ⟨a, ha, ?_⟩)⟩
        exact Prod.ext_iff.mp heq
      obtain ⟨attention, hattention⟩ := hitem
      obtain ⟨delivery, hdelivery⟩ := Journal.exists_insert_attentionRow
        (.label label) ("journal:goal-flight-resume:" ++ itemId) now hc.delivery
      rw [hattention]
      simp only [hdelivery]
      refine ⟨_, rfl, rfl, fun id hne hid => ?_⟩
      have hidc := hid.collapse label now
      refine ⟨fun a ha => ?_, fun r hr => ?_⟩
      · rcases (Table.mem_of_insert? hattention).mp ha with hold | rfl
        · exact hidc.attention a hold
        · exact hne.symm
      · rcases (Table.mem_of_insert? hdelivery).mp hr with hold | rfl
        · exact hidc.delivery r hold
        · simpa [attentionRow] using hne.symm

/-- Expiry commits when its UUID is new: the lease it was asked about ends if it is still
as the probe read it. -/
theorem Journal.expireActiveLease_commits {d : ProvenDead} (endedAt : Timestamp)
    (h : j.ItemUnused d.itemId) :
    ∃ v j', j.expireActiveLease d endedAt = .ok (v, j') ∧
      j'.leases = (if j.provenDeadLease d = none then j.leases else
        j.leases.endActive d.label d.generation ⟨.expired, endedAt, "holder-dead"⟩) ∧
      ∀ id, id ≠ d.itemId → j.ItemUnused id → j'.ItemUnused id := by
  unfold Journal.expireActiveLease
  cases hdead : j.provenDeadLease d with
  | none => exact ⟨none, j, rfl, by simp, fun _ _ hid => hid⟩
  | some l =>
    have hunused : { j with
        leases := j.leases.endActive d.label d.generation ⟨.expired, endedAt, "holder-dead"⟩
        coverage := j.coverage.exitWhere (·.Covers d.label d.generation)
          ⟨endedAt, "orphaned"⟩ : Journal }.ItemUnused d.itemId := ⟨h.attention, h.delivery⟩
    obtain ⟨j', hj', hleases, hothers⟩ := Journal.materializeAttention_commits
      d.label d.generation .horizon "holder-dead" endedAt hunused
    refine ⟨_, j', Tx.andThen_eq_ok.mpr ⟨(), j', hj', rfl⟩, ?_, fun id hne hid => ?_⟩
    · rw [hleases]
      simp
    · exact hothers id hne ⟨hid.attention, hid.delivery⟩

theorem Journal.expireStaleLeases_commits {provenDead : List ProvenDead}
    (endedAt : Timestamp) :
    ∀ {j : Journal}, j.SweepFresh provenDead →
      ∃ v j', j.expireStaleLeases provenDead endedAt = .ok (v, j') := by
  induction provenDead with
  | nil => exact fun _ => ⟨[], _, rfl⟩
  | cons d rest ih =>
    intro j h
    obtain ⟨ended, i, hfirst, -, hothers⟩ :=
      Journal.expireActiveLease_commits endedAt (h.unused d List.mem_cons_self)
    obtain ⟨hd, hrest⟩ := List.nodup_cons.mp h.distinct
    have hfresh : i.SweepFresh rest := by
      refine ⟨hrest, fun e he => hothers e.itemId (fun heq => ?_) ?_⟩
      · exact hd (heq ▸ List.mem_map_of_mem he)
      · exact h.unused e (List.mem_cons_of_mem d he)
    obtain ⟨expired, k, hk⟩ := ih hfresh
    exact ⟨_, k, Tx.andThen_eq_ok.mpr ⟨ended, i, hfirst,
      Tx.andThen_eq_ok.mpr ⟨expired, k, hk, rfl⟩⟩⟩

/-! ### Making a generation -/

theorem Journal.newGeneration_cases (hfree : ∀ l ∈ j.leases, l.label = c.label → ¬ l.Active) :
    (∃ l ∈ j.leases, l.label = c.label ∧ l.nonce = c.allocatedNonce replaced) ∧
        j.newGeneration c replaced = .error (.constraint "controller_leases") ∨
      (∀ l ∈ j.leases, l.label = c.label → l.nonce ≠ c.allocatedNonce replaced) ∧
        ∃ j', j.newGeneration c replaced =
          .ok (c.newLease ((j.leases.maxGeneration? c.label).getD 0 + 1) replaced, j') := by
  by_cases hused : ∃ l ∈ j.leases, l.label = c.label ∧ l.nonce = c.allocatedNonce replaced
  · refine .inl ⟨hused, ?_⟩
    obtain ⟨l, hl, hlabel, hnonce⟩ := hused
    have hrefused : j.leases.insert?
        (c.newLease ((j.leases.maxGeneration? c.label).getD 0 + 1) replaced) = none := by
      refine Table.insert?_eq_none_iff.mpr ⟨l, hl, fun hcompat => hcompat.nonce ?_⟩
      exact Prod.ext hlabel hnonce
    simp only [Journal.newGeneration, hrefused]
  · have hnew : ∀ l ∈ j.leases, l.label = c.label → l.nonce ≠ c.allocatedNonce replaced :=
      fun l hl hlabel hnonce => hused ⟨l, hl, hlabel, hnonce⟩
    refine .inr ⟨hnew, ?_⟩
    have haccepted : ∃ leases, j.leases.insert?
        (c.newLease ((j.leases.maxGeneration? c.label).getD 0 + 1) replaced) = some leases := by
      refine Option.ne_none_iff_exists'.mp fun hnone => ?_
      obtain ⟨l, hl, hclash⟩ := Table.insert?_eq_none_iff.mp hnone
      refine hclash ⟨fun heq => ?_, fun heq => ?_, fun ⟨hactive, _, hlabel⟩ => ?_⟩
      · obtain ⟨hlabel, hgeneration⟩ := Prod.ext_iff.mp heq
        have hle := LeaseTable.generation_le_maxGeneration hl
        rw [show l.label = c.label from hlabel] at hle
        have hgeneration' : l.generation = (j.leases.maxGeneration? c.label).getD 0 + 1 :=
          hgeneration
        omega
      · obtain ⟨hlabel, hnonce⟩ := Prod.ext_iff.mp heq
        exact hnew l hl hlabel hnonce
      · exact hfree l hl hlabel hactive
    obtain ⟨leases, hleases⟩ := haccepted
    exact ⟨_, by simp only [Journal.newGeneration, hleases]; rfl⟩

/-! ### Deciding the claim -/

/-- **Decided.**  The claim's transaction on `opened` commits or loses the comparison, and
a generation it makes has a nonce that no earlier generation of the label had. -/
def LeaseClaim.Decided (c : LeaseClaim) (opened : Journal) :
    Except Abort ControllerLease → Prop
  | .ok lease =>
    (∀ l ∈ opened.leases, l.label = c.label → l.generation ≠ lease.generation) →
      ∀ l ∈ opened.leases, l.label = c.label → l.nonce ≠ lease.nonce
  | .error (.casMismatch _) => True
  | .error _ => False

/-- The claim makes a generation on the journal: its label is free, or another principal
holds it who is proven dead or whom the caller takes over. -/
def LeaseClaim.MakesGeneration (c : LeaseClaim) (j : Journal) : Prop :=
  ∀ l ∈ j.leases, l.label = c.label → l.Active →
    ¬ l.principal.matches c.principal ∧ (c.ProvesDead l ∨ c.takeover)

/-- The nonce supplied for a new generation is one the label already had, in a generation
this claim does not end. -/
def LeaseClaim.RepeatsNonce (c : LeaseClaim) (j : Journal) : Prop :=
  c.MakesGeneration j ∧
    ∃ l ∈ j.leases, l.label = c.label ∧ ¬ l.Active ∧ c.nonce = some l.nonce

instance (c : LeaseClaim) (j : Journal) : Decidable (c.MakesGeneration j) := by
  unfold LeaseClaim.MakesGeneration
  infer_instance

instance (c : LeaseClaim) (j : Journal) : Decidable (c.RepeatsNonce j) := by
  unfold LeaseClaim.RepeatsNonce
  infer_instance

/-- The nonce a new generation is given is a used one exactly when the supplied one is
that of a generation which ended otherwise than through this claim. -/
theorem LeaseClaim.allocated_used_iff
    (hfresh : ∀ l ∈ j.leases, l.label = c.label → l.nonce ≠ c.freshNonce)
    (hreplaced : ∀ l ∈ j.leases, l.label = c.label → (l.Active ↔ replaced = some l.nonce)) :
    (∃ l ∈ j.leases, l.label = c.label ∧ l.nonce = c.allocatedNonce replaced) ↔
      ∃ l ∈ j.leases, l.label = c.label ∧ ¬ l.Active ∧ c.nonce = some l.nonce := by
  unfold LeaseClaim.allocatedNonce
  constructor
  · rintro ⟨l, hl, hlabel, hnonce⟩
    split at hnonce
    · exact absurd hnonce (hfresh l hl hlabel)
    · rename_i n hn
      split at hnonce
      · exact absurd hnonce (hfresh l hl hlabel)
      · rename_i hne
        refine ⟨l, hl, hlabel, fun hactive => hne ?_, by rw [hn, hnonce]⟩
        rw [(hreplaced l hl hlabel).mp hactive, hnonce]
  · rintro ⟨l, hl, hlabel, hended, hnonce⟩
    refine ⟨l, hl, hlabel, ?_⟩
    have hne : replaced ≠ some l.nonce := fun heq => hended ((hreplaced l hl hlabel).mpr heq)
    simp only [hnonce, if_neg hne]

/-- The lease rows of `j` and `j'` agree in label, generation and nonce. -/
def Journal.SameNonces (j j' : Journal) : Prop :=
  j'.leases.rows.map (fun l => (l.label, l.generation, l.nonce)) =
    j.leases.rows.map fun l => (l.label, l.generation, l.nonce)

theorem Journal.SameNonces.of_endActive {label : Label} {generation : ℕ} {e : LeaseEnd}
    (h : j'.leases = j.leases.endActive label generation e) :
    j.SameNonces j' := by
  unfold Journal.SameNonces
  rw [h]
  show List.map _ (List.map _ _) = _
  rw [List.map_map]
  refine List.map_congr_left fun l _ => ?_
  simp only [Function.comp_apply]
  split <;> rfl

theorem Journal.SameNonces.exists_of_mem (h : j.SameNonces j') (hl : l ∈ j.leases) :
    ∃ m ∈ j'.leases, m.label = l.label ∧ m.generation = l.generation ∧ m.nonce = l.nonce := by
  have hmem : (l.label, l.generation, l.nonce) ∈
      j'.leases.rows.map fun l => (l.label, l.generation, l.nonce) := by
    rw [h]
    exact List.mem_map_of_mem hl
  obtain ⟨m, hm, heq⟩ := List.mem_map.mp hmem
  simp only [Prod.mk.injEq] at heq
  exact ⟨m, hm, heq⟩

theorem Journal.SameNonces.symm (h : j.SameNonces j') : j'.SameNonces j :=
  Eq.symm h

theorem LeaseClaim.decided_newGeneration_iff {i : Journal} (hsame : j.SameNonces i)
    (hfree : ∀ l ∈ i.leases, l.label = c.label → ¬ l.Active) :
    c.Decided j ((i.newGeneration c replaced).map Prod.fst) ↔
      ¬ ∃ l ∈ j.leases, l.label = c.label ∧ l.nonce = c.allocatedNonce replaced := by
  rcases Journal.newGeneration_cases hfree with ⟨⟨m, hm, hlabel, hnonce⟩, heq⟩ | ⟨hnew, j', heq⟩
  · obtain ⟨l, hl, hl₁, -, hl₂⟩ := hsame.symm.exists_of_mem hm
    rw [heq]
    exact iff_of_false id fun hunused =>
      hunused ⟨l, hl, hl₁.trans hlabel, hl₂.trans hnonce⟩
  · rw [heq]
    have hunused : ∀ l ∈ j.leases, l.label = c.label → l.nonce ≠ c.allocatedNonce replaced := by
      intro l hl hlabel
      obtain ⟨m, hm, hm₁, -, hm₂⟩ := hsame.exists_of_mem hl
      rw [← hm₂]
      exact hnew m hm (hm₁.trans hlabel)
    refine iff_of_true (fun _ => hunused) ?_
    rintro ⟨l, hl, hlabel, hnonce⟩
    exact hunused l hl hlabel hnonce

theorem LeaseTable.free_of_endActive {t : LeaseTable} {e : LeaseEnd} (hl : l ∈ t)
    (hactive : l.Active) :
    ∀ m ∈ t.endActive l.label l.generation e, m.label = l.label → ¬ m.Active := by
  intro m hm hlabel hm'
  obtain ⟨k, hk, rfl⟩ := Table.exists_of_mem hm rfl
  split at hm'
  · cases hm'
  · rename_i hne
    rw [if_neg hne] at hlabel
    have heq : k = l := Table.eq_of_not_compat hk hl
      (fun hc => hc.oneActive ⟨hm', hactive, hlabel⟩)
      (fun hc => hc.oneActive ⟨hactive, hm', hlabel.symm⟩)
    exact hne ⟨hlabel, by rw [heq], hm'⟩

/-- The incumbent is replaced when the claim makes a generation, and otherwise the claim
is refused. -/
theorem Journal.replaceIncumbent_cases (hl : l ∈ j.leases) (hlabel : l.label = c.label)
    (hactive : l.Active) (hitem : j.ItemUnused c.itemId) :
    ((c.ProvesDead l ∨ c.takeover) ∧ ∃ i e, j.replaceIncumbent c l = .ok ((), i) ∧
        i.leases = j.leases.endActive l.label l.generation e) ∨
      (¬ (c.ProvesDead l ∨ c.takeover) ∧ ∃ reason,
        j.replaceIncumbent c l = .error (.casMismatch reason)) := by
  unfold Journal.replaceIncumbent
  split
  · rename_i hdead
    obtain ⟨v, i, hi, hleases, -⟩ := Journal.expireActiveLease_commits c.now
      (show j.ItemUnused (ProvenDead.mk c.label l.generation l.nonce l.renewedAt c.itemId).itemId
        from hitem)
    refine .inl ⟨.inl hdead, i, ⟨.expired, c.now, "holder-dead"⟩,
      Tx.andThen_eq_ok.mpr ⟨v, i, hi, rfl⟩, ?_⟩
    rw [hleases, if_neg, hlabel]
    intro hnone
    have hnot := Table.find?_eq_none.mp hnone l hl
    simp [hlabel, hactive] at hnot
  · rename_i hdead
    split
    · rename_i htakeover
      refine .inl ⟨.inr htakeover, _, ⟨.superseded, c.now, "explicit-takeover"⟩, rfl, ?_⟩
      rw [hlabel]
    · rename_i htakeover
      exact .inr ⟨fun h => h.elim hdead htakeover, _, rfl⟩

/-- **Step.**  The claim's transaction is decided unless it repeats a nonce. -/
theorem Journal.claimOrRenewLease_decided_iff (hp : c.principal.WellFormed)
    (hfresh : j.ClaimFresh c) :
    c.Decided j ((j.claimOrRenewLease c).map Prod.fst) ↔ ¬ c.RepeatsNonce j := by
  unfold Journal.claimOrRenewLease
  rw [if_neg hp.1, if_neg (not_not.mpr hp.2)]
  have hitem : (j.collapseOpenAttention c.label c.now).ItemUnused c.itemId :=
    hfresh.item.collapse c.label c.now
  have hkept : (j.collapseOpenAttention c.label c.now).leases = j.leases := rfl
  have hlease : (j.collapseOpenAttention c.label c.now).activeLease c.label =
      j.activeLease c.label := rfl
  generalize j.collapseOpenAttention c.label c.now = k at hitem hkept hlease ⊢
  simp only [hlease]
  cases hactive : j.activeLease c.label with
  | none =>
    have hnone := Journal.activeLease_eq_none.mp hactive
    have hmakes : c.MakesGeneration j := fun l hl hlabel h => absurd h (hnone l hl hlabel)
    have hreplaced : ∀ l ∈ j.leases, l.label = c.label →
        (l.Active ↔ (none : Option String) = some l.nonce) :=
      fun l hl hlabel => iff_of_false (hnone l hl hlabel) (by simp)
    have hsame : j.SameNonces k := by rw [Journal.SameNonces, hkept]
    show c.Decided j ((k.newGeneration c none).map Prod.fst) ↔ _
    rw [LeaseClaim.decided_newGeneration_iff hsame (by rwa [hkept]),
      LeaseClaim.allocated_used_iff hfresh.nonce hreplaced, LeaseClaim.RepeatsNonce,
      and_iff_right hmakes]
  | some l =>
    obtain ⟨hl, hlabel, hla⟩ := Journal.activeLease_eq_some.mp hactive
    have honly : ∀ m ∈ j.leases, m.label = c.label → m.Active → m = l := by
      intro m hm hm' hma
      exact Table.eq_of_not_compat hm hl
        (fun hc => hc.oneActive ⟨hma, hla, hm'.trans hlabel.symm⟩)
        (fun hc => hc.oneActive ⟨hla, hma, hlabel.trans hm'.symm⟩)
    by_cases hmatch : l.principal.matches c.principal
    · -- A renewal makes no generation.
      simp only [hmatch, if_true]
      refine iff_of_true (fun hnew => absurd rfl (hnew l hl hlabel)) fun hrepeats => ?_
      exact (hrepeats.1 l hl hlabel hla).1 hmatch
    · simp only [if_neg hmatch]
      rw [← hkept] at hl
      rcases Journal.replaceIncumbent_cases hl hlabel hla hitem with
        ⟨hends, i, e, hi, hleases⟩ | ⟨hrefuses, reason, hrefused⟩
      · rw [hkept] at hl hleases
        have hsame : j.SameNonces i := .of_endActive hleases
        have hfree : ∀ m ∈ i.leases, m.label = c.label → ¬ m.Active := by
          rw [hleases, ← hlabel]
          exact LeaseTable.free_of_endActive hl hla
        have hmakes : c.MakesGeneration j := by
          intro m hm hm' hma
          rw [honly m hm hm' hma]
          exact ⟨hmatch, hends⟩
        have hreplaced : ∀ m ∈ j.leases, m.label = c.label →
            (m.Active ↔ some l.nonce = some m.nonce) := by
          intro m hm hm'
          refine ⟨fun hma => by rw [honly m hm hm' hma], fun heq => ?_⟩
          have hnonce : m.nonce = l.nonce := (Option.some.inj heq).symm
          obtain rfl : m = l := Table.eq_of_not_compat hm hl
            (fun hc => hc.nonce (by rw [hm', hlabel, hnonce]))
            (fun hc => hc.nonce (by rw [hm', hlabel, hnonce]))
          exact hla
        rw [hi]
        show c.Decided j ((i.newGeneration c (some l.nonce)).map Prod.fst) ↔ _
        rw [LeaseClaim.decided_newGeneration_iff hsame hfree,
          LeaseClaim.allocated_used_iff hfresh.nonce hreplaced, LeaseClaim.RepeatsNonce,
          and_iff_right hmakes]
      · rw [hkept] at hl
        rw [hrefused]
        exact iff_of_true trivial fun hrepeats =>
          hrefuses (hrepeats.1 l hl hlabel hla).2

/-- **A claim with any nonce.**  On every journal, whatever the sweep finds dead and
whatever other processes commit between the sweep and the claim: the call commits or loses
the comparison, and makes no generation with a nonce the label had before, exactly when it
does not make a generation under a nonce that an already ended generation of the label
had. -/
theorem claimLease_decided_iff (j : Journal) (provenDead : List ProvenDead)
    (endedAt : Timestamp) (others : List JournalOp) (c : LeaseClaim)
    (hp : c.principal.WellFormed) (hsweep : j.SweepFresh provenDead)
    (hfresh : (j.openedOn provenDead endedAt others).ClaimFresh c) :
    c.Decided (j.openedOn provenDead endedAt others)
        (j.claimLease provenDead endedAt others c).1 ↔
      ¬ c.RepeatsNonce (j.openedOn provenDead endedAt others) := by
  obtain ⟨v, swept, hswept⟩ := Journal.expireStaleLeases_commits endedAt hsweep
  rw [← Journal.claimOrRenewLease_decided_iff hp hfresh]
  unfold Journal.claimLease
  rw [if_neg (not_not.mpr hp), hswept]
  simp only
  split <;> rename_i heq <;> rw [heq] <;> rfl

/-- A controller claims with a nonce it keeps, releases, and claims with the nonce
again. -/
theorem claimLease_fails_after_release :
    let c : LeaseClaim :=
      ⟨"ctl", ⟨some 7, some "s7", none⟩, some "n1", false, none, "u1", "i1", "t0", "t0", "t9"⟩
    let j := Machine.run Journal.step Journal.fresh
      [.claimOrRenewLease c, .releaseLease "ctl" "n1" "retired" "t1"]
    (j.claimLease [] "t2" [] c).1 = .error (.constraint "controller_leases") ∧
      ¬ c.Decided (j.openedOn [] "t2" []) (j.claimLease [] "t2" [] c).1 := by
  have h : (let c : LeaseClaim :=
      ⟨"ctl", ⟨some 7, some "s7", none⟩, some "n1", false, none, "u1", "i1", "t0", "t0", "t9"⟩
    let j := Machine.run Journal.step Journal.fresh
      [.claimOrRenewLease c, .releaseLease "ctl" "n1" "retired" "t1"]
    (j.claimLease [] "t2" [] c).1) = .error (.constraint "controller_leases") := by
    decide +kernel
  exact ⟨h, fun hdecided => by rwa [h] at hdecided⟩

/-- The sweep ends the lease of a dead holder, and the next controller claims the label
with a nonce of its own. -/
theorem claimLease_decided_after_sweep :
    let c : LeaseClaim :=
      ⟨"ctl", ⟨some 8, some "s8", none⟩, some "n2", false, none, "u2", "i2", "t2", "t2", "t9"⟩
    let j := Machine.run Journal.step Journal.fresh [.claimOrRenewLease
      ⟨"ctl", ⟨some 7, some "s7", none⟩, some "n1", false, none, "u1", "i1", "t0", "t0", "t9"⟩]
    let dead : List ProvenDead := [⟨"ctl", 1, "n1", "t0", "i3"⟩]
    c.Decided (j.openedOn dead "t1" []) (j.claimLease dead "t1" [] c).1 := by
  intro c j dead
  have hsweep : j.SweepFresh dead := ⟨by decide, fun d hd => by
    obtain rfl := List.mem_singleton.mp hd
    exact ⟨by decide +kernel, by decide +kernel⟩⟩
  have hfresh : (j.openedOn dead "t1" []).ClaimFresh c :=
    ⟨⟨by decide +kernel, by decide +kernel⟩, by decide +kernel⟩
  exact (claimLease_decided_iff j dead "t1" [] c (by decide) hsweep hfresh).mpr
    (by decide +kernel)

end GoalFlight
