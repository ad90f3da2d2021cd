import AniInference.Turns

namespace AniInference
open Lib Prog

/-- `x` passes `validateReservation`: it is the reservation of the operation itself. -/
def Reservation.Of (op : OperationContext) (x : Reservation) : Prop :=
  x.tenantID = op.tenantID ∧ x.serviceID = op.serviceID ∧ x.operationID = op.id ∧
    x.generation = op.targetGeneration ∧ x.reservationID ≠ none

/-- The calls `es` show that the quota authority has `x` as confirmed. -/
def Reservation.ConfirmedBy (x : Reservation) (es : List Exchange) : Prop :=
  ⟨.provider (.quotaConfirm x), .ok ()⟩ ∈ es ∨
    ∃ tenant id, ⟨.provider (.quotaGet tenant id), .ok x⟩ ∈ es ∧ x.state = .confirmed

/-- Calls of the ports only. -/
def PortsOnly (es : List Exchange) : Prop := ∀ x ∈ es, ∃ p, x.1 = .provider p

theorem portsOnly_nil : PortsOnly [] := fun _ hx => nomatch hx

theorem portsOnly_cons (h : PortsOnly es) : PortsOnly (⟨.provider p, a⟩ :: es) := by
  intro x hx
  rcases List.mem_cons.mp hx with rfl | hx
  · exact ⟨p, rfl⟩
  · exact h x hx

theorem PortsOnly.append (h : PortsOnly es) (h' : PortsOnly es') : PortsOnly (es ++ es') := by
  intro x hx
  rcases List.mem_append.mp hx with hx | hx
  · exact h x hx
  · exact h' x hx

theorem Reservation.ConfirmedBy.append {x : Reservation} (h : x.ConfirmedBy es') :
    x.ConfirmedBy (es ++ es') := by
  rcases h with h | ⟨tenant, id, h, hstate⟩
  · exact .inl (List.mem_append_right _ h)
  · exact .inr ⟨tenant, id, List.mem_append_right _ h, hstate⟩

namespace Runner
open M
section
variable {r : Runner} {op : OperationContext} {x y : Reservation} {c : Call}
variable {es : List Exchange} {state : QuotaState}

theorem asks_validateReservation_bind {α : Type} {f : Unit → M α} :
    Asks (validateReservation op y >>= f).run es c ↔ y.Of op ∧ Asks (f ()).run es c := by
  unfold validateReservation
  rw [asks_failIf_bind]
  simp [Reservation.Of]

theorem played_validateReservation_bind {α : Type} {f : Unit → M α} {b : α} :
    Played (validateReservation op y >>= f).run es (.ok b) ↔
      y.Of op ∧ Played (f ()).run es (.ok b) := by
  unfold validateReservation
  rw [played_failIf_bind_ok]
  simp [Reservation.Of]

/-- What the lookup of a reservation is answered, and what is made of it. -/
inductive Recovers (op : OperationContext) : Except Err Reservation → Option Reservation → Prop
  | missing : Recovers op (.error .reservationNotFound) none
  | blank (y : Reservation) (unnamed : y.reservationID = none) : Recovers op (.ok y) none
  | found (y : Reservation) (own : y.Of op) : Recovers op (.ok y) (some y)

theorem asks_recovered (h : Asks (recovered op y).run es c) :
    es = [] ∧ c = .provider (.quotaGet y.tenantID y.reservationID) := by
  unfold recovered at h
  split at h
  · exact absurd h asks_pure
  · unfold recoverReservation at h
    rcases asks_attempt_bind.mp h with h | ⟨a, es₁, es₂, rfl, h₁, h₂⟩
    · exact asks_provider.mp h
    · split at h₂
      · split at h₂
        · exact absurd h₂ asks_pure
        · exact absurd (asks_validateReservation_bind.mp h₂).2 asks_pure
      · exact absurd h₂ asks_pure
      · exact absurd h₂ asks_throw

theorem played_recovered (h : Played (recovered op y).run es (.ok found)) :
    (y.state = .reserved ∧ es = [] ∧ found = none) ∨
      (y.state ≠ .reserved ∧ ∃ a,
        es = [⟨.provider (.quotaGet y.tenantID y.reservationID), a⟩] ∧ Recovers op a found) := by
  unfold recovered at h
  split at h
  · next hstate =>
    obtain ⟨rfl, hfound⟩ := played_pure.mp h
    exact .inl ⟨hstate, rfl, Except.ok.inj hfound⟩
  · next hstate =>
    unfold recoverReservation at h
    obtain ⟨a, es₁, es₂, rfl, h₁, h₂⟩ := played_attempt_bind.mp h
    obtain rfl := played_provider.mp h₁
    refine .inr ⟨hstate, a, ?_⟩
    split at h₂
    · next z =>
      split at h₂
      · next hnone =>
        obtain ⟨rfl, hfound⟩ := played_pure.mp h₂
        obtain rfl := Except.ok.inj hfound
        exact ⟨by simp, .blank z hnone⟩
      · obtain ⟨hown, h₃⟩ := played_validateReservation_bind.mp h₂
        obtain ⟨rfl, hfound⟩ := played_pure.mp h₃
        obtain rfl := Except.ok.inj hfound
        exact ⟨by simp, .found z hown⟩
    · obtain ⟨rfl, hfound⟩ := played_pure.mp h₂
      obtain rfl := Except.ok.inj hfound
      exact ⟨by simp, .missing⟩
    · obtain ⟨_, hfound⟩ := played_throw.mp h₂
      cases hfound

theorem asks_confirm (h : Asks (confirm op y state).run es c) :
    (es = [] ∧ c = .provider (.quotaConfirm y)) ∨
      ∃ e, es = [⟨.provider (.quotaConfirm y), .error e⟩] ∧
        c = .write (.quota (withReservation op y state "quota_confirm_failed")) := by
  unfold confirm at h
  rcases asks_attempt_bind.mp h with h | ⟨a, es₁, es₂, rfl, h₁, h₂⟩
  · exact .inl (asks_provider.mp h)
  · obtain rfl := played_provider.mp h₁
    cases a with
    | ok u => exact absurd h₂ asks_pure
    | error e =>
      obtain ⟨rfl, hc⟩ := asks_write.mp (asks_joinWith.mp h₂)
      exact .inr ⟨e, by simp, hc⟩

theorem played_confirm (h : Played (confirm op y state).run es (.ok z)) :
    es = [⟨.provider (.quotaConfirm y), .ok ()⟩] ∧ z = y := by
  unfold confirm at h
  obtain ⟨a, es₁, es₂, rfl, h₁, h₂⟩ := played_attempt_bind.mp h
  obtain rfl := played_provider.mp h₁
  cases a with
  | ok u =>
    obtain ⟨rfl, hz⟩ := played_pure.mp h₂
    exact ⟨by simp, Except.ok.inj hz⟩
  | error e =>
    obtain ⟨_, _, _, herr⟩ := played_joinWith h₂
    cases herr

theorem asks_confirmReservation (h : Asks (confirmReservation op y).run es c) :
    (y.state ≠ .reserved ∧ es = [] ∧ c = .provider (.quotaReserve y)) ∨
      ∃ z, (z = y ∨ z.Of op) ∧ (c = .provider (.quotaConfirm z) ∨
        c = .write (.quota (withReservation op z .reserved "quota_confirm_failed"))) := by
  unfold confirmReservation at h
  split at h
  · next hstate =>
    refine .inr ⟨y, .inl rfl, ?_⟩
    rw [hstate] at h
    rcases asks_confirm h with ⟨_, hc⟩ | ⟨_, _, hc⟩
    · exact .inl hc
    · exact .inr hc
  · next hstate =>
    rcases asks_provider_bind.mp h with ⟨rfl, hc⟩ | ⟨z, es', rfl, h₁⟩
    · exact .inl ⟨hstate, rfl, hc⟩
    · obtain ⟨hown, h₂⟩ := asks_validateReservation_bind.mp h₁
      refine .inr ⟨z, .inr hown, ?_⟩
      rcases asks_confirm h₂ with ⟨_, hc⟩ | ⟨_, _, hc⟩
      · exact .inl hc
      · exact .inr hc

theorem played_confirmReservation (h : Played (confirmReservation op y).run es (.ok z)) :
    (z = y ∨ z.Of op) ∧ z.ConfirmedBy es ∧ PortsOnly es := by
  unfold confirmReservation at h
  split at h
  · obtain ⟨rfl, rfl⟩ := played_confirm h
    exact ⟨.inl rfl, .inl List.mem_cons_self, portsOnly_cons portsOnly_nil⟩
  · obtain ⟨a, es', rfl, h₁⟩ := played_provider_bind_ok.mp h
    obtain ⟨hown, h₂⟩ := played_validateReservation_bind.mp h₁
    obtain ⟨rfl, rfl⟩ := played_confirm h₂
    exact ⟨.inr hown, .inl (by simp), portsOnly_cons (portsOnly_cons portsOnly_nil)⟩

/-- How a worker gets from the reservation `y` it has loaded to the one it settles: the lookup, and
what it found. -/
inductive Recovery (op : OperationContext) (y : Reservation) :
    List Exchange → Option Reservation → Prop
  | reserved (state : y.state = .reserved) : Recovery op y [] none
  | looked {a : Except Err Reservation} {found : Option Reservation} (state : y.state ≠ .reserved)
      (recovers : Recovers op a found) :
      Recovery op y [⟨.provider (.quotaGet y.tenantID y.reservationID), a⟩] found

theorem recovery_of_played (h : Played (recovered op y).run es (.ok found)) :
    Recovery op y es found := by
  rcases played_recovered h with ⟨hstate, rfl, rfl⟩ | ⟨hstate, a, rfl, hrecovers⟩
  · exact .reserved hstate
  · exact .looked hstate hrecovers

theorem Recovery.portsOnly (h : Recovery op y es found) : PortsOnly es := by
  cases h with
  | reserved => exact portsOnly_nil
  | looked => exact portsOnly_cons portsOnly_nil

theorem Recovery.own (h : Recovery op y es found) (hy : y.Of op) : (found.getD y).Of op := by
  cases h with
  | reserved => exact hy
  | looked _ recovers =>
    cases recovers with
    | missing | blank => exact hy
    | found z own => exact own

/-- A reservation that is found confirmed was told so by the authority, or was loaded so. -/
theorem Recovery.confirmed (h : Recovery op y es found) (hfound : found.isSome = true)
    (hstate : (found.getD y).state = .confirmed) : (found.getD y).ConfirmedBy es := by
  cases h with
  | reserved => cases hfound
  | looked _ recovers =>
    cases recovers with
    | missing | blank => cases hfound
    | found z own => exact .inr ⟨_, _, List.mem_cons_self, hstate⟩

/-- What a worker asks for in order to reserve. -/
inductive Reserves (op : OperationContext) (y : Reservation) (es : List Exchange) :
    Call → Prop
  | looks (first : es = []) : Reserves op y es (.provider (.quotaGet y.tenantID y.reservationID))
  | reserves {found : Option Reservation} (recovery : Recovery op y es found)
      (unreserved : (found.getD y).state ≠ .reserved)
      (unconfirmed : (found.getD y).state ≠ .confirmed) :
      Reserves op y es (.provider (.quotaReserve (found.getD y)))
  | confirms (z : Reservation) (own : z.Of op) : Reserves op y es (.provider (.quotaConfirm z))
  | saves (z : Reservation) (own : z.Of op) (confirmed : z.ConfirmedBy es) :
      Reserves op y es (.write (.quota (withReservation op z .confirmed "")))
  | fails (z : Reservation) (own : z.Of op) :
      Reserves op y es (.write (.quota (withReservation op z .reserved "quota_confirm_failed")))

theorem asks_reserveQuota (hy : y.Of op) (h : Asks (reserveQuota op y).run es c) :
    Reserves op y es c := by
  unfold reserveQuota at h
  rcases asks_run_bind.mp h with h | ⟨found, es₁, es₂, rfl, h₁, h₂⟩
  · obtain ⟨hes, rfl⟩ := asks_recovered h
    exact .looks hes
  · have hrecovery := recovery_of_played h₁
    have hown := hrecovery.own hy
    dsimp only at h₂
    split at h₂
    · next hstate =>
      rcases asks_run_bind.mp h₂ with h₂ | ⟨_, _, _, _, _, h₃⟩
      · obtain ⟨hfound, h₂⟩ := asks_onlyIf.mp h₂
        obtain ⟨rfl, rfl⟩ := asks_write.mp h₂
        rw [List.append_nil]
        exact .saves _ hown (hrecovery.confirmed hfound hstate)
      · exact absurd h₃ asks_pure
    · next hstate =>
      rcases asks_run_bind.mp h₂ with h₂ | ⟨z, es₃, es₄, rfl, h₃, h₄⟩
      · rcases asks_confirmReservation h₂ with ⟨hunreserved, rfl, rfl⟩ | ⟨z, hz, hc⟩
        · rw [List.append_nil]
          exact .reserves hrecovery hunreserved hstate
        · have hzown : z.Of op := by
            rcases hz with rfl | hz
            · exact hown
            · exact hz
          rcases hc with rfl | rfl
          · exact .confirms z hzown
          · exact .fails z hzown
      · obtain ⟨hz, hconfirmed, _⟩ := played_confirmReservation h₃
        have hzown : z.Of op := by
          rcases hz with rfl | hz
          · exact hown
          · exact hz
        rcases asks_write_bind.mp h₄ with ⟨rfl, rfl⟩ | ⟨_, _, h₅⟩
        · rw [List.append_nil]
          exact .saves z hzown hconfirmed.append
        · exact absurd h₅ asks_pure

theorem asks_runReserveQuota (h : Asks (runReserveQuota r op).run es c) :
    ∃ y, op.reservation = some y ∧ y.Of op ∧ Reserves op y es c := by
  unfold runReserveQuota at h
  split at h
  · exact absurd h asks_pure
  · split at h
    · exact absurd h asks_pure
    · split at h
      · exact absurd h asks_throw
      · next y hy =>
        obtain ⟨hown, h₁⟩ := asks_validateReservation_bind.mp h
        split at h₁
        · exact absurd h₁ asks_pure
        · exact ⟨y, hy, hown, asks_reserveQuota hown h₁⟩

/-- Where the step that reserves quota ends well, the reservation was loaded as confirmed, or is
saved so last. -/
theorem played_runReserveQuota (hquota : r.quota = true)
    (hmanaged : ¬(op.managed = true ∨ op.managedGPU = true))
    (h : Played (runReserveQuota r op).run es (.ok result)) :
    ∃ y, op.reservation = some y ∧ y.Of op ∧
      ((y.state = .confirmed ∧ es = []) ∨ ∃ z es', z.Of op ∧ z.ConfirmedBy es' ∧ PortsOnly es' ∧
        es = es' ++ [⟨.write (.quota (withReservation op z .confirmed "")), .ok ()⟩]) := by
  unfold runReserveQuota at h
  rw [if_neg hmanaged, if_neg (by simp [hquota])] at h
  split at h
  · obtain ⟨_, herr⟩ := played_throw.mp h
    cases herr
  · next y hy =>
    obtain ⟨hown, h₁⟩ := played_validateReservation_bind.mp h
    refine ⟨y, hy, hown, ?_⟩
    split at h₁
    · next hstate =>
      obtain ⟨rfl, _⟩ := played_pure.mp h₁
      exact .inl ⟨hstate, rfl⟩
    · next hstate =>
      refine .inr ?_
      unfold reserveQuota at h₁
      obtain ⟨found, es₁, es₂, rfl, h₂, h₃⟩ := played_run_bind_ok.mp h₁
      have hrecovery := recovery_of_played h₂
      have hfoundOwn := hrecovery.own hown
      dsimp only at h₃
      split at h₃
      · next hconfirmed =>
        have hfound : found.isSome = true := by
          cases found with
          | none => exact absurd hconfirmed hstate
          | some z => rfl
        rw [hfound] at h₃
        obtain ⟨es₃, rfl, h₄⟩ := played_write_bind_ok.mp h₃
        obtain ⟨rfl, _⟩ := played_pure.mp h₄
        exact ⟨_, es₁, hfoundOwn, hrecovery.confirmed hfound hconfirmed, hrecovery.portsOnly, rfl⟩
      · obtain ⟨z, es₃, es₄, rfl, h₄, h₅⟩ := played_run_bind_ok.mp h₃
        obtain ⟨hz, hconfirmed, hports⟩ := played_confirmReservation h₄
        have hzown : z.Of op := by
          rcases hz with rfl | hz
          · exact hfoundOwn
          · exact hz
        obtain ⟨es₅, rfl, h₆⟩ := played_write_bind_ok.mp h₅
        obtain ⟨rfl, _⟩ := played_pure.mp h₆
        exact ⟨z, es₁ ++ es₃, hzown, hconfirmed.append, hrecovery.portsOnly.append hports,
          by simp⟩

/-- What a worker asks for in order to release `y`. -/
inductive Releases (op : OperationContext) (y : Reservation) (es : List Exchange) :
    Call → Prop
  | asks (first : es = []) : Releases op y es (.provider (.quotaRelease y))
  | saves (ports : PortsOnly es) (released : ⟨.provider (.quotaRelease y), .ok ()⟩ ∈ es) :
      Releases op y es (.write (.quota (withReservation op y .released "")))
  | fails (ports : PortsOnly es) : Releases op y es
      (.write (.quota (withReservation op y .releasePending "quota_release_failed")))

theorem asks_releaseReservation (h : Asks (releaseReservation op y).run es c) :
    Releases op y es c := by
  unfold releaseReservation at h
  rcases asks_attempt_bind.mp h with h | ⟨a, es₁, es₂, rfl, h₁, h₂⟩
  · obtain ⟨hes, rfl⟩ := asks_provider.mp h
    exact .asks hes
  · obtain rfl := played_provider.mp h₁
    cases a with
    | ok u =>
      obtain ⟨rfl, rfl⟩ := asks_write.mp h₂
      exact .saves (portsOnly_cons portsOnly_nil) (by simp)
    | error e =>
      obtain ⟨rfl, rfl⟩ := asks_write.mp (asks_joinWith.mp h₂)
      exact .fails (portsOnly_cons portsOnly_nil)

theorem played_releaseReservation (h : Played (releaseReservation op y).run es (.ok u)) :
    es = [⟨.provider (.quotaRelease y), .ok ()⟩,
      ⟨.write (.quota (withReservation op y .released "")), .ok ()⟩] := by
  unfold releaseReservation at h
  obtain ⟨a, es₁, es₂, rfl, h₁, h₂⟩ := played_attempt_bind.mp h
  obtain rfl := played_provider.mp h₁
  cases a with
  | ok v =>
    obtain rfl := played_write.mp h₂
    rfl
  | error e =>
    obtain ⟨_, _, _, herr⟩ := played_joinWith h₂
    cases herr

theorem asks_runReleasePreviousQuota (h : Asks (runReleasePreviousQuota r op).run es c) :
    ∃ y, op.previousReservation = some y ∧ Releases op y es c := by
  unfold runReleasePreviousQuota at h
  split at h
  · exact absurd h asks_pure
  · split at h
    · exact absurd h asks_pure
    · split at h
      · exact absurd h asks_pure
      · next y hy =>
        rcases asks_run_bind.mp h with h | ⟨_, _, _, _, _, h₂⟩
        · exact ⟨y, hy, asks_releaseReservation h⟩
        · exact absurd h₂ asks_pure

/-- What a release ends with. -/
def ReleasedLast (op : OperationContext) (x : Option Reservation) (es : List Exchange) : Prop :=
  (x = none ∧ es = []) ∨ ∃ y es', x = some y ∧ PortsOnly es' ∧
    es = es' ++ [⟨.write (.quota (withReservation op y .released "")), .ok ()⟩]

theorem played_runReleasePreviousQuota (hquota : r.quota = true)
    (hmanaged : ¬(op.managed = true ∨ op.managedGPU = true))
    (h : Played (runReleasePreviousQuota r op).run es (.ok result)) :
    ReleasedLast op op.previousReservation es := by
  unfold runReleasePreviousQuota at h
  rw [if_neg hmanaged, if_neg (by simp [hquota])] at h
  split at h
  · next hnone =>
    obtain ⟨rfl, _⟩ := played_pure.mp h
    exact .inl ⟨hnone, rfl⟩
  · next y hy =>
    obtain ⟨u, es₁, es₂, rfl, h₁, h₂⟩ := played_run_bind_ok.mp h
    obtain rfl := played_releaseReservation h₁
    obtain ⟨rfl, _⟩ := played_pure.mp h₂
    exact .inr ⟨y, [_], hy, portsOnly_cons portsOnly_nil, rfl⟩

theorem asks_reportRelease_quota (h : Asks (reportRelease op).run es (.write (.quota x))) : False :=
  (only_reportRelease (P := fun c => c ≠ .write (.quota x)) (fun _ => by simp)
    (fun _ _ _ _ => by simp) fun _ => by simp).asks h rfl

/-- What the step that releases quota writes: a release, or a placeholder that is cancelled here. -/
theorem asks_runReleaseQuota (h : Asks (runReleaseQuota r op).run es (.write (.quota x))) :
    ∃ y, op.reservation = some y ∧ (Releases op y es (.write (.quota x)) ∨
      (op.kind = .delete ∧ localPlaceholder y = true ∧ es = [] ∧
        x = withReservation op y .released "")) := by
  unfold runReleaseQuota at h
  split at h
  · obtain ⟨op', _, _, _, h₁⟩ := asks_runReleaseManagedGPU h
    exact absurd h₁ asks_reportRelease_quota
  · split at h
    · exact absurd h asks_pure
    · split at h
      · exact absurd h asks_pure
      · next y hy =>
        refine ⟨y, hy, ?_⟩
        split at h
        · next hlocal =>
          rcases asks_write_bind.mp h with ⟨hes, hc⟩ | ⟨_, _, h₂⟩
          · injection hc with hc
            injection hc with hc
            exact .inr ⟨hlocal.1, hlocal.2, hes, hc⟩
          · exact absurd h₂ asks_pure
        · split at h
          · exact absurd h asks_pure
          · rcases asks_run_bind.mp h with h | ⟨_, _, _, _, _, h₂⟩
            · exact .inl (asks_releaseReservation h)
            · exact absurd h₂ asks_pure

theorem played_runReleaseQuota (hquota : r.quota = true)
    (hmanaged : ¬(op.managed = true ∨ op.managedGPU = true))
    (h : Played (runReleaseQuota r op).run es (.ok result)) :
    ReleasedLast op op.reservation es := by
  unfold runReleaseQuota at h
  rw [if_neg (fun hc => hmanaged (.inr hc.1)), if_neg hmanaged] at h
  split at h
  · next hnone =>
    obtain ⟨rfl, _⟩ := played_pure.mp h
    exact .inl ⟨hnone, rfl⟩
  · next y hy =>
    split at h
    · obtain ⟨es', rfl, h₁⟩ := played_write_bind_ok.mp h
      obtain ⟨rfl, _⟩ := played_pure.mp h₁
      exact .inr ⟨y, [], hy, portsOnly_nil, rfl⟩
    · rw [if_neg (by simp [hquota])] at h
      obtain ⟨u, es₁, es₂, rfl, h₁, h₂⟩ := played_run_bind_ok.mp h
      obtain rfl := played_releaseReservation h₁
      obtain ⟨rfl, _⟩ := played_pure.mp h₂
      exact .inr ⟨y, [_], hy, portsOnly_cons portsOnly_nil, rfl⟩

end
end Runner

end AniInference
