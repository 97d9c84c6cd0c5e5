import DeviceAuth.OAuth.Client
import DeviceAuth.Proofs.Except
import DeviceAuth.Settings.Validate

/-! What settings that pass validation are good for. All that is read from them alone can be had;
but validation does not look at URLs, so clients can be built, and asked for the URLs at which
access is granted, exactly if the endpoints are URLs. -/
namespace DeviceAuth

def Url.IsText [Url.Idna] (s : String) : Prop := ∃ url, Url.parse s = .ok url

namespace OAuth

theorem Config.authorizationUrl_ok_iff [Url.Idna] (c : Config) (state : String) :
    (∃ url, c.authorizationUrl state = .ok url) ↔ Url.IsText c.endpoint.authUrl := by
  unfold authorizationUrl Url.IsText
  cases Url.parse c.endpoint.authUrl with
  | error e => simp
  | ok url => simp

namespace Client

theorem ofConfig_eq_ok_iff [Url.Idna] (c : Config) (strategy : Strategy) (client : Client) :
    ofConfig c strategy = .ok client ↔
      c.clientId ≠ "" ∧ Url.IsText c.endpoint.authUrl ∧
        (c.redirectUrl = "" ∨ Url.IsText c.redirectUrl) ∧
        ∃ tokenUrl, Url.parse c.endpoint.tokenUrl = .ok tokenUrl ∧
          client = ⟨c, tokenUrl, strategy⟩ := by
  unfold ofConfig endpoint Url.IsText
  by_cases hname : c.clientId = ""
  · simp [hname, throw, throwThe, MonadExceptOf.throw, bind, Except.bind]
  rw [if_neg hname]
  cases Url.parse c.endpoint.authUrl with
  | error e => simp [bind, Except.bind]
  | ok authUrl =>
    cases Url.parse c.endpoint.tokenUrl with
    | error e => simp [bind, Except.bind]
    | ok tokenUrl =>
      by_cases hredirect : c.redirectUrl = ""
      · simp [hname, hredirect, bind, Except.bind, pure, Except.pure, eq_comm]
      · cases Url.parse c.redirectUrl <;>
          simp [hname, hredirect, bind, Except.bind, pure, Except.pure, eq_comm]

end Client

end OAuth

namespace Settings

open OAuth (Client Strategy)

variable {s : Settings}

/-- Everything that is read from the settings alone is there. -/
structure Configures (s : Settings) : Prop where
  address : ∃ address, s.listenAddress = .ok address
  listener : ∃ config, s.listenConfig = .ok config
  provider : ∃ name, s.providerName = .ok name
  device : ∃ config, s.deviceOAuth = .ok config
  console : ∃ config, s.consoleOAuth = .ok config
  document : ∃ document, s.wellKnown = .ok document

/-- Every step from the settings to a service succeeds, and so does every request for an
authorization URL, of a device or of a console. -/
structure Serves [Url.Idna] (s : Settings) : Prop extends Configures s where
  client : ∀ config, s.deviceOAuth = .ok config → ∀ strategy,
    ∃ client, Client.ofConfig config strategy = .ok client
  deviceUrl : ∀ config, s.deviceOAuth = .ok config → ∀ strategy client,
    Client.ofConfig config strategy = .ok client → ∀ state,
      ∃ url, client.authorizationUrl state = .ok url
  consoleUrl : ∀ config, s.consoleOAuth = .ok config → ∀ state,
    ∃ url, config.authorizationUrl state = .ok url

/-- The endpoints are URLs; that to which devices come back need not be set. -/
structure HasUrls [Url.Idna] (s : Settings) : Prop where
  authorization : Url.IsText s.device.authUrl
  token : Url.IsText s.device.tokenUrl
  redirect : s.device.redirectUrl = "" ∨ Url.IsText s.device.redirectUrl
  console : Url.IsText s.console.authUrl

theorem configures_of_validate (h : s.validate = .ok ()) : s.Configures := by
  obtain ⟨address, haddress, h⟩ := Except.bind_ok h
  obtain ⟨listener, hlistener, h⟩ := Except.bind_ok h
  obtain ⟨provider, hprovider, h⟩ := Except.bind_ok h
  obtain ⟨device, hdevice, h⟩ := Except.bind_ok h
  obtain ⟨console, hconsole, -⟩ := Except.bind_ok h
  refine ⟨⟨_, haddress⟩, ⟨_, hlistener⟩, ⟨_, hprovider⟩, ⟨_, hdevice⟩, ⟨_, hconsole⟩, ?_⟩
  rw [wellKnown, hdevice, hconsole]
  exact ⟨_, rfl⟩

theorem deviceOAuth_ok {config : OAuth.Config} (h : s.deviceOAuth = .ok config) :
    config.clientId ≠ "" ∧ config.endpoint.authUrl = s.device.authUrl ∧
      config.endpoint.tokenUrl = s.device.tokenUrl ∧
      config.redirectUrl = s.device.redirectUrl := by
  obtain ⟨_, hname, h⟩ := Except.bind_ok h
  obtain ⟨_, -, h⟩ := Except.bind_ok h
  obtain ⟨_, -, h⟩ := Except.bind_ok h
  cases hstyle : OAuth.AuthStyle.ofString? s.device.authStyle with
  | none =>
    rw [hstyle] at h
    cases h
  | some style =>
  rw [hstyle] at h
  obtain ⟨_, -, h⟩ := Except.bind_ok h
  obtain ⟨scopes, -, h⟩ := Except.bind_ok h
  cases h
  refine ⟨fun hempty => ?_, rfl, rfl, rfl⟩
  rw [needed, if_pos hempty] at hname
  cases hname

theorem consoleOAuth_ok {config : OAuth.Config} (h : s.consoleOAuth = .ok config) :
    config.endpoint.authUrl = s.console.authUrl := by
  obtain ⟨scopes, -, h⟩ := Except.bind_ok h
  cases h
  rfl

/-- Settings that pass validation give everything that is read from them alone. They are enough to
serve exactly if the endpoints are URLs, which is not validated. -/
theorem serves_iff_of_validate [Url.Idna] (h : s.validate = .ok ()) :
    s.Configures ∧ (s.Serves ↔ s.HasUrls) := by
  have hconfigures := configures_of_validate h
  obtain ⟨device, hdevice⟩ := hconfigures.device
  obtain ⟨console, hconsole⟩ := hconfigures.console
  obtain ⟨hname, hauth, htoken, hredirect⟩ := deviceOAuth_ok hdevice
  refine ⟨hconfigures, fun hserves => ?_, fun hurls => ⟨hconfigures, ?_, ?_, ?_⟩⟩
  · obtain ⟨client, hclient⟩ := hserves.client device hdevice Strategy.default
    obtain ⟨-, hauthText, hredirectText, tokenUrl, htokenText, -⟩ :=
      (Client.ofConfig_eq_ok_iff ..).mp hclient
    have hconsoleText :=
      (OAuth.Config.authorizationUrl_ok_iff ..).mp (hserves.consoleUrl _ hconsole "")
    rw [hauth] at hauthText
    rw [htoken] at htokenText
    rw [hredirect] at hredirectText
    rw [consoleOAuth_ok hconsole] at hconsoleText
    exact ⟨hauthText, ⟨tokenUrl, htokenText⟩, hredirectText, hconsoleText⟩
  · intro config hconfig strategy
    cases hdevice.symm.trans hconfig
    obtain ⟨tokenUrl, htokenText⟩ := hurls.token
    exact ⟨_, (Client.ofConfig_eq_ok_iff ..).mpr ⟨hname, hauth ▸ hurls.authorization,
      hredirect ▸ hurls.redirect, tokenUrl, htoken ▸ htokenText, rfl⟩⟩
  · intro config hconfig strategy client hclient state
    cases hdevice.symm.trans hconfig
    obtain ⟨-, -, -, tokenUrl, -, rfl⟩ := (Client.ofConfig_eq_ok_iff ..).mp hclient
    obtain ⟨url, hurl⟩ :=
      (OAuth.Config.authorizationUrl_ok_iff device state).mpr (hauth ▸ hurls.authorization)
    exact ⟨url, Except.mapError_eq_ok_iff.mpr hurl⟩
  · intro config hconfig state
    exact (OAuth.Config.authorizationUrl_ok_iff ..).mpr (consoleOAuth_ok hconfig ▸ hurls.console)

def sampleVariables (authUrl : String) : Variables :=
  [("DEVICE_OAUTH_CLIENT_ID", "c"), ("DEVICE_OAUTH_ENDPOINT_AUTH_URL", authUrl),
    ("DEVICE_OAUTH_ENDPOINT_TOKEN_URL", "https://t"), ("SDK_OAUTH_ENDPOINT_AUTH_URL", "https://a")]

/-- Also with a host that has to be mapped. -/
theorem serves_sample :
    let _ : Url.Idna := .ofList [("b\u00FCcher.example", "xn--bcher-kva.example")]
    ∃ s, ofVariables (sampleVariables "https://b\u00FCcher.example") = .ok s ∧
      s.validate = .ok () ∧ s.Configures ∧ s.Serves := by
  intro mapping
  refine ⟨_, rfl, by decide +kernel, And.imp_right (fun h => h.mpr ?_) (serves_iff_of_validate ?_)⟩
  · decide +kernel
  · exact ⟨⟨_, rfl⟩, ⟨_, rfl⟩, .inl rfl, ⟨_, rfl⟩⟩

/-- A text without a scheme is no URL, but passes for one. -/
theorem not_serves_relative :
    ∃ s, ofVariables (sampleVariables "a") = .ok s ∧ s.validate = .ok () ∧
      (∃ config, s.deviceOAuth = .ok config ∧
        (∀ strategy, Client.ofConfig config strategy =
          .error (.config (.invalidEndpoint .authorization .relativeWithoutBase))) ∧
        ∀ state, config.authorizationUrl state =
          .error (.invalidEndpoint .authorization .relativeWithoutBase)) ∧
      ¬s.Serves := by
  refine ⟨_, rfl, by decide +kernel, ⟨_, rfl, fun strategy => rfl, fun state => rfl⟩,
    fun hserves => ?_⟩
  obtain ⟨client, hclient⟩ := hserves.client _ rfl Strategy.default
  cases hclient

end Settings

end DeviceAuth
