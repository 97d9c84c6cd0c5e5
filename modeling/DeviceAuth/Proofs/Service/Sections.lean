import DeviceAuth.Proofs.Section
import DeviceAuth.Proofs.Service.Registration
import DeviceAuth.Proofs.Service.Renewal
import DeviceAuth.Proofs.Service.Session
import DeviceAuth.Proofs.Service.UserDevices
import DeviceAuth.Service.Perform

/-! The commands and their guarded sections. Registration and renewal put a record in place inside
the section of its device only, and only for the owner that they have seen there. -/
namespace DeviceAuth

open Command in
theorem OAuth.Client.request_bind_all {α : Type} {P : Action → Prop} {c : Client} {grant : Grant}
    {f : Tokens → Command α} (hremote : ∀ a, a.IsRemote → P a)
    (hf : ∀ delivery now tokens, c.ofDelivery grant.type delivery now = .ok tokens →
      (f tokens).All P) : (c.request grant >>= f).All P := by
  unfold request
  cases c.call grant with
  | error e => trivial
  | ok call =>
    refine ⟨hremote _ trivial, fun delivery => ⟨hremote _ trivial, fun now => ?_⟩⟩
    exact all_ofExcept_bind (f := f) (hf delivery now)

namespace Service

variable {s : Service} {device : DeviceId}

theorem register_follows (s : Service) (owner : UserId) (tokens : OAuth.Tokens)
    (guard : GuardId) :
    (s.register device owner tokens).Follows (.holding device guard none)
      (fun _ => Phase.IsIn device guard) (Phase.IsIn device guard) := by
  unfold register
  refine Command.follows_fetch.bind fun found phase hphase => ?_
  subst hphase
  refine Command.follows_ofExcept_bind (fun _ hvacant => ?_) ⟨_, rfl⟩
  have hnow : Command.now.All Action.IsRemote := Command.all_now (P := Action.IsRemote) trivial
  refine (Command.follows_of_remote hnow).bind fun issued phase hphase => ?_
  subst hphase
  refine Command.follows_ofExcept_bind (fun record hrecord => ?_) ⟨_, rfl⟩
  obtain ⟨hdevice, howner, -⟩ := Record.Draft.build_ok (Except.mapError_ok hrecord)
  refine (Command.follows_of_remote hnow).bind fun now phase hphase => ?_
  subst hphase
  refine (Command.follows_save hdevice fun r₀ hr₀ => ?_).bind fun _ phase hphase => hphase
  rw [howner]
  exact checkVacant_ok hvacant r₀ hr₀

theorem ownedDevice_follows (user : UserId) (guard : GuardId) :
    (ownedDevice device user).Follows (.holding device guard none)
      (fun r phase => phase = .holding device guard (some (some r)))
      (Phase.IsIn device guard) := by
  unfold ownedDevice
  refine Command.follows_fetch.bind fun found phase hphase => ?_
  subst hphase
  cases hr : checkOwner device user found with
  | error e => exact ⟨_, rfl⟩
  | ok r =>
    obtain ⟨rfl, -⟩ := checkOwner_ok hr
    exact rfl

theorem exchangeFor_stays (s : Service) (current : Record) (token : Secret) (guard : GuardId) :
    (s.exchangeFor device current token).All
      (Phase.holding device guard (some (some current))).Stays := by
  refine exchangeFor_all s current token ⟨fun a ha => ?_, fun now => ?_, fun expected r hd ho => ?_⟩
  · cases a with
    | send _ | now => exact ⟨trivial, fun _ => rfl⟩
    | _ => cases ha
  · exact ⟨trivial, fun _ => rfl⟩
  · exact ⟨⟨rfl, current, rfl, ho.symm⟩, fun _ => rfl⟩

theorem exchange_follows (s : Service) (user : UserId) (presented : Secret) (guard : GuardId) :
    (s.exchange device user presented).Follows (.holding device guard none)
      (fun _ => Phase.IsIn device guard) (Phase.IsIn device guard) := by
  rw [exchange_eq]
  refine (ownedDevice_follows user guard).bind fun current phase hphase => ?_
  subst hphase
  refine Command.follows_ofExcept_bind (fun token _ => ?_) ⟨_, rfl⟩
  have hin : Phase.IsIn device guard (.holding device guard (some (some current))) := ⟨_, rfl⟩
  exact (Command.follows_of_stays (exchangeFor_stays s current token guard) hin).mono
    fun _ _ h => h ▸ hin

theorem signUp_follows (s : Service) (q : SignUpRequest) :
    (s.signUp q).Follows .outside (fun _ phase => phase = .outside) (· = .outside) := by
  unfold signUp
  refine Command.follows_ofExcept_bind (fun device _ => ?_) rfl
  dsimp only
  split
  · exact rfl
  refine Command.follows_ofExcept_bind (fun _ _ => ?_) rfl
  have hrequest := (s.client.request_reads (.authorizationCode q.code.text)).mono
    fun _ => Action.IsRead.isFree
  refine (Command.follows_of_free hrequest).bind fun tokens phase hphase => ?_
  subst hphase
  refine Command.follows_ofExcept_bind (fun owner _ => ?_) rfl
  exact Command.follows_guarded (register_follows s owner tokens)

theorem refresh_follows (s : Service) (q : RefreshRequest) :
    (s.refresh q).Follows .outside (fun _ phase => phase = .outside) (· = .outside) := by
  unfold refresh
  refine Command.follows_ofExcept_bind (fun device _ => ?_) rfl
  refine Command.follows_ofExcept_bind (fun user _ => ?_) rfl
  dsimp only
  split
  · exact rfl
  · exact Command.follows_guarded (exchange_follows s user q.refreshToken)

theorem perform_follows (hs : ∀ bearer, (s.verifier bearer).All Action.IsRead) (bearer : String)
    (task : Task) (q : task.Request) :
    (s.perform bearer task q).Follows .outside (fun _ phase => phase = .outside)
      (· = .outside) := by
  have hread : ∀ a : Action, a.IsRead → a.IsFree := fun _ => Action.IsRead.isFree
  cases task with
  | signUp => exact signUp_follows s q
  | signIn => exact Command.follows_of_free ((signIn_reads bearer q).mono hread)
  | signOut => exact Command.follows_of_free (signOut_free bearer q)
  | signOff => exact Command.follows_of_free (signOff_free bearer q)
  | refresh => exact refresh_follows s q
  | listDevices => exact Command.follows_of_free ((listDevices_reads q (hs bearer)).mono hread)
  | deleteDevices => exact Command.follows_of_free (deleteDevices_free q ((hs bearer).mono hread))

/-- Records that a task may save: a sign-up that of the owner whom an answer of the provider names,
any other none. -/
def MaySave (s : Service) : (task : Task) → task.Request → Record → Prop
  | .signUp, q, r => q.device = r.device.text ∧ ∃ delivery now tokens,
      s.client.ofDelivery .authorizationCode delivery now = .ok tokens ∧
        s.client.owner tokens = .ok r.owner
  | _, _, _ => False

theorem signUp_saves (s : Service) (q : SignUpRequest) :
    (s.signUp q).All (Action.Saves (s.MaySave .signUp q)) := by
  unfold signUp
  refine Command.all_ofExcept_bind fun device hdevice => ?_
  dsimp only
  split
  · exact Command.all_throw _
  refine (Command.all_ofExcept _).bind fun _ => ?_
  refine OAuth.Client.request_bind_all (fun a ha => ha.isRead.isFree.saves)
    fun delivery now tokens htokens => ?_
  refine Command.all_ofExcept_bind fun owner howner => ?_
  refine Command.All.guarded trivial (fun _ => trivial) (fun _ => trivial) ?_
  refine (register_registers s device owner tokens).mono fun a ha => ?_
  cases a with
  | store op =>
    cases op with
    | save r =>
      obtain ⟨rfl, rfl⟩ := ha
      exact ⟨(required_ok hdevice).symm, delivery, now, tokens, htokens, howner⟩
    | _ => trivial
  | _ => trivial

theorem refresh_saves (s : Service) (q : RefreshRequest) (P : Record → Prop) :
    (s.refresh q).All (Action.Saves P) := by
  unfold refresh
  refine (Command.all_ofExcept _).bind fun device => ?_
  refine (Command.all_ofExcept _).bind fun user => ?_
  dsimp only
  split
  · exact Command.all_throw _
  · refine Command.All.guarded trivial (fun _ => trivial) (fun _ => trivial) ?_
    refine exchange_all s user q.refreshToken (fun _ ha => ha.isFree.saves) fun owner => ?_
    exact ⟨fun _ ha => ha.isRead.isFree.saves, fun _ => trivial, fun _ _ _ _ => trivial⟩

theorem perform_saves (hs : ∀ bearer, (s.verifier bearer).All Action.IsRead) (bearer : String)
    (task : Task) (q : task.Request) :
    (s.perform bearer task q).All (Action.Saves (s.MaySave task q)) := by
  have hfree : ∀ a : Action, a.IsFree → a.Saves (s.MaySave task q) := fun _ ha => ha.saves
  have hread : ∀ a : Action, a.IsRead → a.IsFree := fun _ => Action.IsRead.isFree
  cases task with
  | signUp => exact signUp_saves s q
  | signIn => exact ((signIn_reads bearer q).mono hread).mono hfree
  | signOut => exact (signOut_free bearer q).mono hfree
  | signOff => exact (signOff_free bearer q).mono hfree
  | refresh => exact refresh_saves s q _
  | listDevices => exact ((listDevices_reads q (hs bearer)).mono hread).mono hfree
  | deleteDevices => exact (deleteDevices_free q ((hs bearer).mono hread)).mono hfree

end Service

end DeviceAuth
