import DgProto.Handshake.Establish
import DgProto.Connection.State

/-!
# Runtime settings

A client and a server are given the same nine settings: seven durations and two
queue capacities.  `normalizeClientConfig` and `NewServer` check them in
different orders, with different guards and different messages; the settings
that pass then reach `NewConnection`, which has defaults of its own.

A duration is an `int64`, and the checks compute with it.  Every signed
operation of the source is written here as its exact value, brought back to 64
bits by `round`.  With `wrapInt64` this is what the machine does.  With
`fitInt64` the evaluation stops at the first value that does not fit, so an
evaluation that does not stop has performed no signed overflow.

`RuntimeSettings.Acceptable` says in exact integers which settings are meant to
pass, and `RuntimeSettings.effective` what they become; both functions are
compared with these two.
-/

namespace DgProto

open Wire Crypto

/-! ## Settings -/

/-- The settings that `ConnectionConfig` and `ServerConfig` share.  Of the handler
only its presence matters. -/
structure RuntimeSettings where
  handshakeTimeout : Int64
  readTimeout : Int64
  writeTimeout : Int64
  idleTimeout : Int64
  keepaliveInterval : Int64
  keepaliveTimeout : Int64
  handlerShutdownTimeout : Int64
  outboundQueue : Int
  handlerQueue : Int
  handler : Bool
  deriving DecidableEq

/-- The whole of `ClientConfig`, with its embedded `ConnectionConfig`. -/
structure ClientSetup extends ClientConfig, RuntimeSettings

/-- The whole of `ServerConfig`.  Of the two hooks only their presence matters. -/
structure ServerSetup extends ServerConfig, RuntimeSettings where
  maxConcurrentHandshakes : Int
  maxActiveConnections : Int
  admission : Bool
  onDisconnect : Bool

/-- The `ConnectionConfig` that `NewConnection` is given: the one a client embeds, and
the literal of `handleConn`. -/
def RuntimeSettings.connConfig (s : RuntimeSettings) : ConnectionConfig where
  outboundQueue := s.outboundQueue
  handlerQueue := s.handlerQueue
  readTimeout := s.readTimeout.toInt
  writeTimeout := s.writeTimeout.toInt
  idleTimeout := s.idleTimeout.toInt
  keepaliveInterval := s.keepaliveInterval.toInt
  keepaliveTimeout := s.keepaliveTimeout.toInt
  handler := s.handler
  handlerShutdownTimeout := s.handlerShutdownTimeout.toInt

/-! ## Signed arithmetic -/

/-- The machine's arithmetic, which wraps. -/
def wrapInt64 (value : Int) : Id Int64 :=
  Int64.ofInt value

/-- Arithmetic that stops at a value outside the 64-bit range. -/
def fitInt64 (value : Int) : Option Int64 :=
  if -2 ^ 63 ≤ value ∧ value < 2 ^ 63 then some (Int64.ofInt value) else none

/-! ## The checks -/

section Checks

variable {m : Type → Type} [Monad m] (round : Int → m Int64)

/-- An error made with `errors.New`, which wraps no sentinel. -/
def settingsError (text : String) : Error :=
  ⟨[], "dgproto: " ++ text⟩

/-- `10 * time.Second`. -/
def defaultHandshakeTimeout : Int64 := 10000000000

/-- `defaultKeepaliveTimeout`, in 64-bit arithmetic. -/
def defaultKeepaliveTimeoutBy (interval : Int64) : m (Int64 × Bool) :=
  if Int64.maxValue / 2 < interval then pure (Int64.maxValue, false)
  else do
    let timeout ← round (2 * interval.toInt)
    pure (timeout, true)

/-- The keepalive timeout after the default has been filled in, and whether the default
was representable. -/
def fillKeepaliveTimeout (s : RuntimeSettings) : m (Int64 × Bool) :=
  if 0 < s.keepaliveInterval ∧ s.keepaliveTimeout = 0 then
    defaultKeepaliveTimeoutBy round s.keepaliveInterval
  else pure (s.keepaliveTimeout, true)

/-- The longer of two durations. -/
def longer (a b : Int64) : Int64 :=
  if a < b then b else a

/-- The settings with the keepalive timeout that was filled in. -/
def RuntimeSettings.withKeepaliveTimeout (s : RuntimeSettings) (timeout : Int64) :
    RuntimeSettings :=
  { s with keepaliveTimeout := timeout }

/-- The settings with the default handshake timeout of both functions. -/
def RuntimeSettings.withHandshakeTimeout (s : RuntimeSettings) : RuntimeSettings :=
  { s with
    handshakeTimeout :=
      if s.handshakeTimeout = 0 then defaultHandshakeTimeout else s.handshakeTimeout }

/-- `normalizeClientConfig`. -/
def normalizeClientConfigBy (N : HandshakePrimitives) (config : ClientSetup) :
    m (Except Error ClientSetup) :=
  match config.staticKey.validate N with
  | .error err => pure (.error err)
  | .ok () =>
    if config.serverStatic.length ≠ noiseKeySize ∨ allZero config.serverStatic then
      pure (.error (Sentinel.invalidClientConfig.wrap "a nonzero 32-byte server pin is required"))
    else if config.handshakeTimeout < 0 ∨ config.readTimeout < 0 ∨ config.writeTimeout < 0 ∨
        config.idleTimeout < 0 ∨ config.keepaliveInterval < 0 ∨ config.keepaliveTimeout < 0 ∨
        config.handlerShutdownTimeout < 0 ∨ config.outboundQueue < 0 ∨
        config.handlerQueue < 0 then
      pure (.error (Sentinel.invalidClientConfig.wrap
        "timeouts and queue capacities must not be negative"))
    else do
      let filled ← fillKeepaliveTimeout round config.toRuntimeSettings
      if filled.2 = false then
        pure (.error (Sentinel.invalidClientConfig.wrap "keepalive interval overflow"))
      else do
        -- Unlike `NewServer`, the room is computed whether or not keepalive is on.
        let room ← round (Int64.maxValue.toInt - config.keepaliveInterval.toInt)
        if room < filled.1 then
          pure (.error (Sentinel.invalidClientConfig.wrap "keepalive window overflow"))
        else do
          let keepaliveWindow ← round (config.keepaliveInterval.toInt + filled.1.toInt)
          let window := longer config.idleTimeout keepaliveWindow
          if 0 < config.readTimeout ∧ config.readTimeout < window then
            pure (.error (Sentinel.invalidClientConfig.wrap
              "ReadTimeout must cover the idle/keepalive window or be zero"))
          else
            pure (.ok { config with
              toRuntimeSettings := config.withHandshakeTimeout.withKeepaliveTimeout filled.1 })

/-- The checks of `NewServer` on the signs of the durations. -/
def checkServerSigns (s : RuntimeSettings) : Except Error Unit :=
  if s.handshakeTimeout < 0 then
    .error (settingsError "HandshakeTimeout must not be negative")
  else if s.readTimeout < 0 ∨ s.writeTimeout < 0 ∨ s.idleTimeout < 0 ∨
      s.keepaliveInterval < 0 then
    .error (settingsError "connection timeouts must not be negative")
  else if s.handlerShutdownTimeout < 0 then
    .error (settingsError "HandlerShutdownTimeout must not be negative")
  else if s.keepaliveTimeout < 0 then
    .error (settingsError "KeepaliveTimeout must not be negative")
  else .ok ()

/-- Whether `NewServer` finds the liveness window of a keepalive too large. -/
def serverWindowTooLarge (s : RuntimeSettings) : m Bool :=
  if 0 < s.keepaliveInterval then do
    let room ← round (Int64.maxValue.toInt - s.keepaliveInterval.toInt)
    pure (room < s.keepaliveTimeout)
  else pure false

/-- Whether `NewServer` finds the read timeout shorter than the liveness window. -/
def serverReadTooShort (s : RuntimeSettings) : m Bool :=
  if 0 < s.readTimeout then do
    let keepaliveWindow ← round (s.keepaliveInterval.toInt + s.keepaliveTimeout.toInt)
    let livenessWindow := longer s.idleTimeout keepaliveWindow
    pure (0 < livenessWindow ∧ s.readTimeout < livenessWindow)
  else pure false

/-- The part of `NewServer` after the durations: the handshake timeout, the queues and the
admission limits. -/
def fillServerLimits (config : ServerSetup) : Except Error ServerSetup :=
  if config.outboundQueue < 0 then
    .error (settingsError "OutboundQueue must not be negative")
  else if config.handlerQueue < 0 then
    .error (settingsError "HandlerQueue must not be negative")
  else if config.maxConcurrentHandshakes < 0 then
    .error (settingsError "MaxConcurrentHandshakes must not be negative")
  else if config.maxActiveConnections < 0 then
    .error (settingsError "MaxActiveConnections must not be negative")
  else
    .ok { config with
      toRuntimeSettings :=
        { config.withHandshakeTimeout with
          outboundQueue := if config.outboundQueue = 0 then 16 else config.outboundQueue
          handlerQueue := if config.handlerQueue = 0 then 16 else config.handlerQueue }
      maxConcurrentHandshakes :=
        if config.maxConcurrentHandshakes = 0 then 64 else config.maxConcurrentHandshakes
      maxActiveConnections :=
        if config.maxActiveConnections = 0 then 1024 else config.maxActiveConnections }

/-- `NewServer`, up to the configuration that the server is made with. -/
def newServerConfigBy (N : HandshakePrimitives) (config : ServerSetup) :
    m (Except Error ServerSetup) :=
  let suite := if config.cipherSuite = 0 then cipherChaCha20Poly1305 else config.cipherSuite
  if suite ≠ cipherChaCha20Poly1305 then
    pure (.error (Sentinel.unsupportedCipher.wrap "DGProto v1 requires ChaCha20-Poly1305"))
  else match config.staticKey.validate N with
  | .error err => pure (.error err)
  | .ok () =>
    match checkServerSigns config.toRuntimeSettings with
    | .error err => pure (.error err)
    | .ok () => do
      let filled ← fillKeepaliveTimeout round config.toRuntimeSettings
      if filled.2 = false then
        pure (.error (settingsError "KeepaliveInterval is too large"))
      else do
        let settings := config.withKeepaliveTimeout filled.1
        if ← serverWindowTooLarge round settings then
          pure (.error (settingsError "keepalive liveness window is too large"))
        else if ← serverReadTooShort round settings then
          pure (.error (settingsError
            "ReadTimeout must be zero or at least the idle/keepalive liveness window"))
        else
          pure (fillServerLimits { config with
            cipherSuite := suite, toRuntimeSettings := settings })

end Checks

/-- `normalizeClientConfig`, on the machine. -/
def normalizeClientConfig (N : HandshakePrimitives) (config : ClientSetup) :
    Except Error ClientSetup :=
  normalizeClientConfigBy wrapInt64 N config

/-- `NewServer`, on the machine. -/
def newServerConfig (N : HandshakePrimitives) (config : ServerSetup) :
    Except Error ServerSetup :=
  newServerConfigBy wrapInt64 N config

/-! ## Acceptable settings -/

namespace RuntimeSettings

/-- The keepalive timeout in effect: twice the interval where none is set. -/
def liveness (s : RuntimeSettings) : Int :=
  if 0 < s.keepaliveInterval.toInt ∧ s.keepaliveTimeout.toInt = 0 then
    2 * s.keepaliveInterval.toInt
  else s.keepaliveTimeout.toInt

/-- How long a peer may stay silent under keepalive. -/
def window (s : RuntimeSettings) : Int :=
  s.keepaliveInterval.toInt + s.liveness

/-- No duration is negative. -/
structure Durations (s : RuntimeSettings) : Prop where
  handshake : 0 ≤ s.handshakeTimeout.toInt
  read : 0 ≤ s.readTimeout.toInt
  write : 0 ≤ s.writeTimeout.toInt
  idle : 0 ≤ s.idleTimeout.toInt
  interval : 0 ≤ s.keepaliveInterval.toInt
  timeout : 0 ≤ s.keepaliveTimeout.toInt
  shutdown : 0 ≤ s.handlerShutdownTimeout.toInt

/-- The settings that are meant to pass. -/
structure Acceptable (s : RuntimeSettings) : Prop where
  durations : s.Durations
  queues : 0 ≤ s.outboundQueue ∧ 0 ≤ s.handlerQueue
  window : s.window ≤ maxInt64
  covered : s.readTimeout.toInt = 0 ∨ max s.idleTimeout.toInt s.window ≤ s.readTimeout.toInt

/-- What acceptable settings become. -/
def effective (s : RuntimeSettings) : RuntimeSettings :=
  s.withHandshakeTimeout.withKeepaliveTimeout (Int64.ofInt s.liveness)

theorem Durations.liveness_nonneg {s : RuntimeSettings} (h : s.Durations) : 0 ≤ s.liveness := by
  have hinterval := h.interval
  have htimeout := h.timeout
  unfold liveness
  split <;> omega

theorem Acceptable.liveness_le {s : RuntimeSettings} (h : s.Acceptable) :
    s.liveness ≤ maxInt64 := by
  have hwindow : s.keepaliveInterval.toInt + s.liveness ≤ maxInt64 := h.window
  have hinterval := h.durations.interval
  omega

theorem toInt_ofInt_liveness {s : RuntimeSettings} (h : s.Durations)
    (hle : s.liveness ≤ maxInt64) : (Int64.ofInt s.liveness).toInt = s.liveness := by
  have hnonneg := h.liveness_nonneg
  unfold maxInt64 at hle
  exact Int64.toInt_ofInt_of_le (by omega) (by omega)

end RuntimeSettings

/-! ## Evaluation without overflow -/

/-- A way of rounding that leaves every value of 64 bits as it is. -/
def RoundsExactly {m : Type → Type} [Monad m] (round : Int → m Int64) : Prop :=
  ∀ value, -2 ^ 63 ≤ value → value < 2 ^ 63 → round value = pure (Int64.ofInt value)

theorem roundsExactly_wrapInt64 : RoundsExactly wrapInt64 := by
  intro value _ _
  rfl

theorem roundsExactly_fitInt64 : RoundsExactly fitInt64 := by
  intro value hlow hhigh
  exact if_pos ⟨hlow, hhigh⟩

theorem toInt_maxValue_half : (Int64.maxValue / 2).toInt = 4611686018427387903 := by
  decide

section Evaluation

variable {m : Type → Type} [Monad m] {round : Int → m Int64} {s : RuntimeSettings}

theorem toInt_longer (a b : Int64) : (longer a b).toInt = max a.toInt b.toInt := by
  unfold longer
  simp only [Int64.lt_iff_toInt_lt]
  split <;> omega

/-- The room above a duration that is not negative. -/
theorem round_room (hround : RoundsExactly round) {interval : Int64} (h : 0 ≤ interval.toInt) :
    round (Int64.maxValue.toInt - interval.toInt) =
      pure (Int64.ofInt (maxInt64 - interval.toInt)) ∧
    (Int64.ofInt (maxInt64 - interval.toInt)).toInt = maxInt64 - interval.toInt := by
  have hinterval := interval.toInt_lt
  unfold maxInt64
  constructor
  · exact hround _ (by rw [Int64.toInt_maxValue]; omega) (by rw [Int64.toInt_maxValue]; omega)
  · exact Int64.toInt_ofInt_of_le (by omega) (by omega)

/-- A sum of two durations that stays within the range. -/
theorem round_sum (hround : RoundsExactly round) {a b : Int64} (ha : 0 ≤ a.toInt)
    (hb : 0 ≤ b.toInt) (hfits : a.toInt + b.toInt ≤ maxInt64) :
    round (a.toInt + b.toInt) = pure (Int64.ofInt (a.toInt + b.toInt)) ∧
    (Int64.ofInt (a.toInt + b.toInt)).toInt = a.toInt + b.toInt := by
  unfold maxInt64 at hfits
  constructor
  · exact hround _ (by omega) (by omega)
  · exact Int64.toInt_ofInt_of_le (by omega) (by omega)

variable [LawfulMonad m]

/-- Where the default is used, the 64-bit computation is the exact one. -/
theorem defaultKeepaliveTimeoutBy_eq (hround : RoundsExactly round) {interval : Int64}
    (hpos : 0 < interval.toInt) :
    defaultKeepaliveTimeoutBy round interval =
      pure (Int64.ofInt (defaultKeepaliveTimeout interval.toInt).1,
        (defaultKeepaliveTimeout interval.toInt).2) := by
  unfold defaultKeepaliveTimeoutBy defaultKeepaliveTimeout maxInt64
  simp only [Int64.lt_iff_toInt_lt, toInt_maxValue_half]
  by_cases hlarge : 4611686018427387903 < interval.toInt
  · rw [if_pos hlarge, if_pos (by omega)]
    rfl
  · rw [if_neg hlarge, if_neg (by omega), hround _ (by omega) (by omega), pure_bind]

theorem fillKeepaliveTimeout_eq (hround : RoundsExactly round) :
    fillKeepaliveTimeout round s =
      pure (if s.liveness ≤ maxInt64 then (Int64.ofInt s.liveness, true)
        else (Int64.maxValue, false)) := by
  have htimeout := s.keepaliveTimeout.toInt_lt
  unfold fillKeepaliveTimeout RuntimeSettings.liveness
  simp only [Int64.lt_iff_toInt_lt, ← Int64.toInt_inj, Int64.toInt_zero]
  by_cases hdefault : 0 < s.keepaliveInterval.toInt ∧ s.keepaliveTimeout.toInt = 0
  · simp only [if_pos hdefault]
    rw [defaultKeepaliveTimeoutBy_eq hround hdefault.1]
    unfold defaultKeepaliveTimeout maxInt64
    by_cases hlarge : 9223372036854775807 / 2 < s.keepaliveInterval.toInt
    · rw [if_pos hlarge, if_neg (by omega)]
      rfl
    · rw [if_neg hlarge, if_pos (by omega)]
  · simp only [if_neg hdefault, Int64.ofInt_toInt]
    unfold maxInt64
    rw [if_pos (by omega)]

/-- Without keepalive the window is a timeout, which fits: the guard of `NewServer` changes
nothing. -/
theorem serverWindowTooLarge_eq (hround : RoundsExactly round) (h : s.Durations)
    (hlive : s.liveness ≤ maxInt64) :
    serverWindowTooLarge round (s.withKeepaliveTimeout (Int64.ofInt s.liveness)) =
      pure (decide (maxInt64 < s.window)) := by
  have hinterval := h.interval
  obtain ⟨hroom, hvalue⟩ := round_room hround hinterval
  unfold serverWindowTooLarge RuntimeSettings.withKeepaliveTimeout RuntimeSettings.window
  simp only [Int64.lt_iff_toInt_lt, Int64.toInt_zero]
  by_cases hpos : 0 < s.keepaliveInterval.toInt
  · rw [if_pos hpos, hroom, pure_bind, hvalue, s.toInt_ofInt_liveness h hlive]
    congr 2
    exact propext (by omega)
  · have hzero : ¬ maxInt64 < s.keepaliveInterval.toInt + s.liveness := by
      omega
    rw [if_neg hpos, decide_eq_false hzero]

theorem serverReadTooShort_eq (hround : RoundsExactly round) (h : s.Durations)
    (hlive : s.liveness ≤ maxInt64) (hwindow : s.window ≤ maxInt64) :
    serverReadTooShort round (s.withKeepaliveTimeout (Int64.ofInt s.liveness)) =
      pure (decide (0 < s.readTimeout.toInt ∧
        s.readTimeout.toInt < max s.idleTimeout.toInt s.window)) := by
  have hliveness := s.toInt_ofInt_liveness h hlive
  have hnonneg : 0 ≤ (Int64.ofInt s.liveness).toInt := by
    rw [hliveness]
    exact h.liveness_nonneg
  obtain ⟨hsum, hvalue⟩ := round_sum hround h.interval hnonneg (by rw [hliveness]; exact hwindow)
  unfold serverReadTooShort RuntimeSettings.withKeepaliveTimeout
  by_cases hpos : 0 < s.readTimeout.toInt
  · have hread : (0 : Int64) < s.readTimeout := by
      rwa [Int64.lt_iff_toInt_lt, Int64.toInt_zero]
    dsimp only
    rw [if_pos hread, hsum, pure_bind]
    simp only [Int64.lt_iff_toInt_lt, Int64.toInt_zero, toInt_longer, hvalue]
    unfold RuntimeSettings.window
    rw [hliveness]
    congr 2
    exact propext (by omega)
  · have hread : ¬ (0 : Int64) < s.readTimeout := by
      rwa [Int64.lt_iff_toInt_lt, Int64.toInt_zero]
    rw [if_neg hread, decide_eq_false (fun h => hpos h.1)]

end Evaluation

/-! ## What the two functions accept -/

/-- The remaining settings of a client are valid: its key and the pin. -/
structure ClientSetup.Provisioned (N : HandshakePrimitives) (config : ClientSetup) : Prop where
  key : config.staticKey.validate N = .ok ()
  pin : config.serverStatic.length = noiseKeySize ∧ allZero config.serverStatic = false

/-- The remaining settings of a server are valid: its cipher, its key and its limits. -/
structure ServerSetup.Provisioned (N : HandshakePrimitives) (config : ServerSetup) : Prop where
  cipher : config.cipherSuite = 0 ∨ config.cipherSuite = cipherChaCha20Poly1305
  key : config.staticKey.validate N = .ok ()
  handshakes : 0 ≤ config.maxConcurrentHandshakes
  connections : 0 ≤ config.maxActiveConnections

section Acceptance

variable {m : Type → Type} [Monad m] [LawfulMonad m] {round : Int → m Int64}
variable {N : HandshakePrimitives}

theorem checkServerSigns_eq_ok {s : RuntimeSettings} (h : s.Durations) :
    checkServerSigns s = .ok () := by
  obtain ⟨hhandshake, hread, hwrite, hidle, hinterval, htimeout, hshutdown⟩ := h
  unfold checkServerSigns
  simp only [Int64.lt_iff_toInt_lt, Int64.toInt_zero]
  rw [if_neg (by omega), if_neg (by omega), if_neg (by omega), if_neg (by omega)]

theorem durations_of_checkServerSigns {s : RuntimeSettings} (h : checkServerSigns s = .ok ()) :
    s.Durations := by
  unfold checkServerSigns at h
  simp only [Int64.lt_iff_toInt_lt, Int64.toInt_zero] at h
  split at h
  · cases h
  split at h
  · cases h
  split at h
  · cases h
  split at h
  · cases h
  constructor <;> omega

/-- The configuration a client goes on with. -/
def ClientSetup.normalized (config : ClientSetup) : ClientSetup :=
  { config with toRuntimeSettings := config.effective }

/-- The configuration a server is made with. -/
def ServerSetup.normalized (config : ServerSetup) : ServerSetup :=
  { config with
    cipherSuite := cipherChaCha20Poly1305
    toRuntimeSettings :=
      { config.effective with
        outboundQueue := if config.outboundQueue = 0 then 16 else config.outboundQueue
        handlerQueue := if config.handlerQueue = 0 then 16 else config.handlerQueue }
    maxConcurrentHandshakes :=
      if config.maxConcurrentHandshakes = 0 then 64 else config.maxConcurrentHandshakes
    maxActiveConnections :=
      if config.maxActiveConnections = 0 then 1024 else config.maxActiveConnections }

/-- Acceptable settings pass the client's checks, in any arithmetic that is exact within
64 bits, and only those do. -/
theorem normalizeClientConfigBy_cases (hround : RoundsExactly round) {config : ClientSetup}
    (hprovisioned : config.Provisioned N) :
    (config.Acceptable ∧
      normalizeClientConfigBy round N config = pure (.ok config.normalized)) ∨
    (¬ config.Acceptable ∧
      ∃ err, normalizeClientConfigBy round N config = pure (.error err)) := by
  obtain ⟨hkey, hlength, hpin⟩ := hprovisioned
  unfold normalizeClientConfigBy
  rw [hkey]
  dsimp only
  rw [if_neg (by simp [hlength, hpin])]
  simp only [Int64.lt_iff_toInt_lt, Int64.toInt_zero]
  split
  · rename_i hnegative
    right
    refine ⟨fun h => ?_, _, rfl⟩
    obtain ⟨⟨hhandshake, hread, hwrite, hidle, hinterval, htimeout, hshutdown⟩, hqueues, -, -⟩ := h
    omega
  rename_i hsigns
  have hdurations : config.Durations := by
    constructor <;> omega
  rw [fillKeepaliveTimeout_eq hround, pure_bind]
  by_cases hlive : config.liveness ≤ maxInt64
  swap
  · right
    refine ⟨fun h => hlive h.liveness_le, Sentinel.invalidClientConfig.wrap
      "keepalive interval overflow", ?_⟩
    rw [if_neg hlive, if_pos rfl]
  have hvalue := RuntimeSettings.toInt_ofInt_liveness hdurations hlive
  obtain ⟨hroom, hroomValue⟩ := round_room hround hdurations.interval
  rw [if_pos hlive]
  dsimp only
  rw [if_neg (by simp), hroom, pure_bind, hroomValue, hvalue]
  by_cases hwindow : config.window ≤ maxInt64
  swap
  · right
    refine ⟨fun h => hwindow h.window, Sentinel.invalidClientConfig.wrap
      "keepalive window overflow", ?_⟩
    unfold RuntimeSettings.window at hwindow
    rw [if_pos (by omega)]
  have hfits : config.keepaliveInterval.toInt + (Int64.ofInt config.liveness).toInt ≤ maxInt64 := by
    rw [hvalue]
    exact hwindow
  obtain ⟨hsum, hsumValue⟩ := round_sum hround hdurations.interval
    (by rw [hvalue]; exact hdurations.liveness_nonneg) hfits
  rw [hvalue] at hsum hsumValue
  have hroomy : ¬ maxInt64 - config.keepaliveInterval.toInt < config.liveness := by
    unfold RuntimeSettings.window at hwindow
    omega
  rw [if_neg hroomy, hsum, pure_bind, toInt_longer, hsumValue]
  change _ ∧ (if _ ∧ _ < max _ config.window then _ else _) = _ ∨ _
  by_cases hcovered : 0 < config.readTimeout.toInt ∧
      config.readTimeout.toInt < max config.idleTimeout.toInt config.window
  · right
    refine ⟨fun h => ?_, _, if_pos hcovered⟩
    have := h.covered
    omega
  · left
    have hread := hdurations.read
    exact ⟨⟨hdurations, by omega, hwindow, by omega⟩, if_neg hcovered⟩

/-- The last part of `NewServer`, on settings whose durations have passed. -/
theorem fillServerLimits_cases {config : ServerSetup} (hprovisioned : config.Provisioned N)
    {passed : ServerSetup}
    (hpassed : passed = { config with
      cipherSuite := cipherChaCha20Poly1305
      toRuntimeSettings := config.withKeepaliveTimeout (Int64.ofInt config.liveness) }) :
    ((0 ≤ config.outboundQueue ∧ 0 ≤ config.handlerQueue) ∧
      fillServerLimits passed = .ok config.normalized) ∨
    (¬ (0 ≤ config.outboundQueue ∧ 0 ≤ config.handlerQueue) ∧
      ∃ err, fillServerLimits passed = .error err) := by
  have hhandshakes := hprovisioned.handshakes
  have hconnections := hprovisioned.connections
  subst hpassed
  unfold fillServerLimits RuntimeSettings.withKeepaliveTimeout
  dsimp only
  by_cases houtbound : config.outboundQueue < 0
  · right
    exact ⟨by omega, _, if_pos houtbound⟩
  rw [if_neg houtbound]
  by_cases hhandler : config.handlerQueue < 0
  · right
    exact ⟨by omega, _, if_pos hhandler⟩
  rw [if_neg hhandler, if_neg (by omega), if_neg (by omega)]
  left
  exact ⟨by omega, rfl⟩

/-- The same policy decides what a server accepts. -/
theorem newServerConfigBy_cases (hround : RoundsExactly round) {config : ServerSetup}
    (hprovisioned : config.Provisioned N) :
    (config.Acceptable ∧
      newServerConfigBy round N config = pure (.ok config.normalized)) ∨
    (¬ config.Acceptable ∧
      ∃ err, newServerConfigBy round N config = pure (.error err)) := by
  have hsuite : (if config.cipherSuite = 0 then cipherChaCha20Poly1305 else config.cipherSuite) =
      cipherChaCha20Poly1305 := by
    rcases hprovisioned.cipher with hcipher | hcipher <;> simp [hcipher]
  unfold newServerConfigBy
  rw [hsuite, hprovisioned.key]
  dsimp only
  rw [if_neg (by simp)]
  cases hsigns : checkServerSigns config.toRuntimeSettings with
  | error err =>
      right
      refine ⟨fun h => ?_, err, rfl⟩
      rw [checkServerSigns_eq_ok h.durations] at hsigns
      cases hsigns
  | ok value =>
  have hdurations := durations_of_checkServerSigns hsigns
  dsimp only
  rw [fillKeepaliveTimeout_eq hround, pure_bind]
  by_cases hlive : config.liveness ≤ maxInt64
  swap
  · right
    refine ⟨fun h => hlive h.liveness_le, settingsError "KeepaliveInterval is too large", ?_⟩
    rw [if_neg hlive, if_pos rfl]
  rw [if_pos hlive]
  dsimp only
  rw [if_neg (by simp), serverWindowTooLarge_eq hround hdurations hlive, pure_bind]
  by_cases hwindow : config.window ≤ maxInt64
  swap
  · right
    refine ⟨fun h => hwindow h.window, settingsError "keepalive liveness window is too large", ?_⟩
    rw [if_pos (by simpa using hwindow)]
  rw [if_neg (by simpa using hwindow), serverReadTooShort_eq hround hdurations hlive hwindow,
    pure_bind]
  by_cases hshort : 0 < config.readTimeout.toInt ∧
      config.readTimeout.toInt < max config.idleTimeout.toInt config.window
  · right
    refine ⟨fun h => ?_, settingsError
      "ReadTimeout must be zero or at least the idle/keepalive liveness window", ?_⟩
    · have hcovered := h.covered
      omega
    · rw [if_pos (decide_eq_true hshort)]
  rw [if_neg (by simpa using hshort)]
  rcases fillServerLimits_cases hprovisioned rfl with ⟨hqueues, hfilled⟩ | ⟨hqueues, err, hfilled⟩
  · left
    have hread := hdurations.read
    exact ⟨⟨hdurations, hqueues, hwindow, by omega⟩, congrArg pure hfilled⟩
  · right
    exact ⟨fun h => hqueues h.queues, err, congrArg pure hfilled⟩

/-- What a two-way answer says about the result, once the evaluation is a value. -/
theorem eq_ok_iff_of_cases {α : Type} {P : Prop} {result : Except Error α} {expected accepted : α}
    (h : (P ∧ result = .ok expected) ∨ (¬ P ∧ ∃ err, result = .error err)) :
    result = .ok accepted ↔ P ∧ accepted = expected := by
  rcases h with ⟨hP, rfl⟩ | ⟨hP, err, rfl⟩
  · rw [Except.ok.injEq, eq_comm]
    exact (and_iff_right hP).symm
  · simp [hP]

theorem normalizeClientConfig_eq_ok_iff {config accepted : ClientSetup}
    (hprovisioned : config.Provisioned N) :
    normalizeClientConfig N config = .ok accepted ↔
      config.Acceptable ∧ accepted = config.normalized :=
  eq_ok_iff_of_cases (normalizeClientConfigBy_cases roundsExactly_wrapInt64 hprovisioned)

theorem newServerConfig_eq_ok_iff {config accepted : ServerSetup}
    (hprovisioned : config.Provisioned N) :
    newServerConfig N config = .ok accepted ↔
      config.Acceptable ∧ accepted = config.normalized :=
  eq_ok_iff_of_cases (newServerConfigBy_cases roundsExactly_wrapInt64 hprovisioned)

/-! ### What a configuration that passed has kept -/

theorem provisioned_of_normalize {setup config : ClientSetup}
    (h : normalizeClientConfig N setup = .ok config) : setup.Provisioned N := by
  unfold normalizeClientConfig normalizeClientConfigBy at h
  split at h
  · cases h
  rename_i hkey
  split at h
  · cases h
  rename_i hpin
  refine ⟨hkey, ?_, ?_⟩
  · by_contra hlength
    exact hpin (.inl hlength)
  · by_contra hzero
    exact hpin (.inr (Bool.eq_true_of_not_eq_false hzero))

/-- `normalizeClientConfig` leaves the keys of a client as they are. -/
theorem normalizeClientConfig_keeps {setup config : ClientSetup}
    (h : normalizeClientConfig N setup = .ok config) :
    setup.Provisioned N ∧ config.toClientConfig = setup.toClientConfig := by
  have hprovisioned := provisioned_of_normalize h
  obtain ⟨-, rfl⟩ := (normalizeClientConfig_eq_ok_iff hprovisioned).mp h
  exact ⟨hprovisioned, rfl⟩

/-- The pin of a configuration that passed. -/
theorem normalizeClientConfig_pin {setup config : ClientSetup}
    (h : normalizeClientConfig N setup = .ok config) :
    config.serverStatic = setup.serverStatic ∧ setup.serverStatic ≠ [] := by
  obtain ⟨hprovisioned, hkeys⟩ := normalizeClientConfig_keeps h
  refine ⟨congrArg ClientConfig.serverStatic hkeys, fun hnil => ?_⟩
  have hlength := hprovisioned.2.1
  rw [hnil] at hlength
  exact absurd hlength (by decide)

theorem ite_default_pos {limit : Int} (default : Int) (hdefault : 0 < default)
    (h : ¬ limit < 0) : 0 < if limit = 0 then default else limit := by
  split_ifs <;> omega

/-- The limits of a server are positive, and its keys are left as they are. -/
theorem fillServerLimits_filled {config filled : ServerSetup}
    (h : fillServerLimits config = .ok filled) :
    (0 < filled.maxConcurrentHandshakes ∧ 0 < filled.maxActiveConnections) ∧
      filled.toServerConfig = config.toServerConfig := by
  unfold fillServerLimits at h
  by_cases hout : config.outboundQueue < 0
  · rw [if_pos hout] at h
    cases h
  by_cases hhandlers : config.handlerQueue < 0
  · rw [if_neg hout, if_pos hhandlers] at h
    cases h
  by_cases hhandshakes : config.maxConcurrentHandshakes < 0
  · rw [if_neg hout, if_neg hhandlers, if_pos hhandshakes] at h
    cases h
  by_cases hconns : config.maxActiveConnections < 0
  · rw [if_neg hout, if_neg hhandlers, if_neg hhandshakes, if_pos hconns] at h
    cases h
  rw [if_neg hout, if_neg hhandlers, if_neg hhandshakes, if_neg hconns] at h
  obtain rfl := Except.ok.inj h
  exact ⟨⟨ite_default_pos 64 (by decide) hhandshakes, ite_default_pos 1024 (by decide) hconns⟩, rfl⟩

/-- A configuration that `NewServer` accepts has come to the last of its checks. -/
theorem newServerConfig_filled {setup config : ServerSetup}
    (h : newServerConfig N setup = .ok config) :
    setup.staticKey.validate N = .ok () ∧ ∃ settings, fillServerLimits { setup with
      cipherSuite := cipherChaCha20Poly1305, toRuntimeSettings := settings } = .ok config := by
  unfold newServerConfig newServerConfigBy at h
  generalize (if setup.cipherSuite = 0 then cipherChaCha20Poly1305 else setup.cipherSuite) =
    suite at h
  dsimp only at h
  by_cases hsuite : suite ≠ cipherChaCha20Poly1305
  · rw [if_pos hsuite] at h
    cases h
  rw [if_neg hsuite] at h
  rw [not_not] at hsuite
  cases hkey : setup.staticKey.validate N with
  | error err =>
      rw [hkey] at h
      cases h
  | ok u =>
      rw [hkey] at h
      cases hsigns : checkServerSigns setup.toRuntimeSettings with
      | error err =>
          rw [hsigns] at h
          cases h
      | ok u' =>
          rw [hsigns] at h
          dsimp only [bind, pure] at h
          split at h
          · cases h
          split at h
          · cases h
          split at h
          · cases h
          rw [hsuite] at h
          exact ⟨rfl, _, h⟩

theorem newServerConfig_pos {setup config : ServerSetup}
    (h : newServerConfig N setup = .ok config) :
    0 < config.maxConcurrentHandshakes ∧ 0 < config.maxActiveConnections := by
  obtain ⟨-, settings, hfilled⟩ := newServerConfig_filled h
  exact (fillServerLimits_filled hfilled).1

/-- `NewServer` checks the key of a server, leaves it as it is and fixes the cipher suite. -/
theorem newServerConfig_keeps {setup config : ServerSetup}
    (h : newServerConfig N setup = .ok config) :
    setup.staticKey.validate N = .ok () ∧
      config.toServerConfig =
        { setup.toServerConfig with cipherSuite := cipherChaCha20Poly1305 } := by
  obtain ⟨hkey, settings, hfilled⟩ := newServerConfig_filled h
  exact ⟨hkey, (fillServerLimits_filled hfilled).2⟩

end Acceptance

/-! ## One policy for both -/

/-- Settings that a connection can run with: keepalive has a deadline of its own, the
liveness window fits, and a read waits long enough for it. -/
structure ConnectionConfig.Live (config : ConnectionConfig) : Prop where
  deadline : 0 < config.keepaliveInterval → 0 < config.keepaliveTimeout
  fits : -2 ^ 63 ≤ config.keepaliveInterval + config.keepaliveTimeout ∧
    config.keepaliveInterval + config.keepaliveTimeout < 2 ^ 63
  covered : config.readTimeout = 0 ∨
    max config.idleTimeout (config.keepaliveInterval + config.keepaliveTimeout) ≤
      config.readTimeout

namespace RuntimeSettings

variable {s : RuntimeSettings}

theorem Acceptable.effective_timeout (h : s.Acceptable) :
    s.effective.keepaliveTimeout.toInt = s.liveness :=
  toInt_ofInt_liveness h.durations h.liveness_le

theorem Acceptable.effective_live (h : s.Acceptable) : s.effective.connConfig.Live := by
  have hinterval := h.durations.interval
  have hnonneg := h.durations.liveness_nonneg
  have hwindow : s.keepaliveInterval.toInt + s.liveness ≤ maxInt64 := h.window
  have htimeout : s.effective.connConfig.keepaliveTimeout = s.liveness := h.effective_timeout
  constructor
  · intro hpos
    rw [htimeout]
    change (0 : Int) < s.keepaliveInterval.toInt at hpos
    have hset := h.durations.timeout
    show (0 : Int) < s.liveness
    unfold liveness
    split <;> omega
  · rw [htimeout]
    change -2 ^ 63 ≤ s.keepaliveInterval.toInt + _ ∧ s.keepaliveInterval.toInt + _ < 2 ^ 63
    unfold maxInt64 at hwindow
    omega
  · rw [htimeout]
    exact h.covered

end RuntimeSettings

/-- A queue that `NewServer` has already given its default is left alone. -/
theorem queue_default (capacity : Int) :
    (if (if capacity = 0 then 16 else capacity) ≤ 0 then 16
      else if capacity = 0 then 16 else capacity) =
    if capacity ≤ 0 then 16 else capacity := by
  split <;> split <;> omega

/-- `NewConnection` defaults a queue that the client left unset as `NewServer` does. -/
theorem withDefaults_normalized {client : ClientSetup} {server : ServerSetup}
    (hsettings : client.toRuntimeSettings = server.toRuntimeSettings) :
    server.normalized.connConfig.withDefaults = client.normalized.connConfig.withDefaults := by
  have hclient : client.normalized.connConfig = server.effective.connConfig := by
    unfold ClientSetup.normalized
    rw [hsettings]
  rw [hclient]
  unfold ConnectionConfig.withDefaults
  rw [ConnectionConfig.mk.injEq]
  exact ⟨queue_default _, queue_default _, rfl, rfl, rfl, rfl, rfl, rfl, rfl⟩

/-- The condition of the fallback in `NewConnection`: a keepalive without a timeout. -/
def ConnectionConfig.LacksTimeout (config : ConnectionConfig) : Prop :=
  0 < config.keepaliveInterval ∧ config.keepaliveTimeout ≤ 0

namespace ConnectionConfig.Live

variable {config : ConnectionConfig}

theorem not_lacksTimeout (h : config.Live) : ¬ config.LacksTimeout := by
  rintro ⟨hinterval, htimeout⟩
  exact absurd (h.deadline hinterval) (not_lt.mpr htimeout)

theorem withDefaults (h : config.Live) : config.withDefaults.Live := by
  have htimeout : config.withDefaults.keepaliveTimeout = config.keepaliveTimeout :=
    if_neg h.not_lacksTimeout
  constructor
  · rw [htimeout]
    exact h.deadline
  · rw [htimeout]
    exact h.fits
  · rw [htimeout]
    exact h.covered

end ConnectionConfig.Live

/-- Client and server validate the runtime settings identically: whatever the durations and
queue sizes, one accepts them exactly if the other does, and a connection then runs with the
same configuration.  No operation of an accepting evaluation overflows; the accepted keepalive
always has a positive timeout, so `NewConnection` never falls back, its liveness window fits, and
a read timeout covers it. -/
theorem settings_validated_alike (N : HandshakePrimitives) (client : ClientSetup)
    (server : ServerSetup) (hclient : client.Provisioned N) (hserver : server.Provisioned N)
    (hsettings : client.toRuntimeSettings = server.toRuntimeSettings) :
    ((∃ accepted, newServerConfig N server = .ok accepted) ↔
      ∃ accepted, normalizeClientConfig N client = .ok accepted) ∧
    ∀ s c, newServerConfig N server = .ok s → normalizeClientConfig N client = .ok c →
      s.connConfig.withDefaults = c.connConfig.withDefaults ∧
      s.handshakeTimeout = c.handshakeTimeout ∧
      newServerConfigBy fitInt64 N server = some (.ok s) ∧
      normalizeClientConfigBy fitInt64 N client = some (.ok c) ∧
      ¬ s.connConfig.LacksTimeout ∧ ¬ c.connConfig.LacksTimeout ∧
      s.connConfig.withDefaults.Live := by
  constructor
  · simp only [newServerConfig_eq_ok_iff hserver, normalizeClientConfig_eq_ok_iff hclient,
      hsettings, exists_eq_right]
  intro s c hs hc
  obtain ⟨h, rfl⟩ := (newServerConfig_eq_ok_iff hserver).mp hs
  obtain ⟨hclientAcceptable, rfl⟩ := (normalizeClientConfig_eq_ok_iff hclient).mp hc
  have hconfig : client.normalized.connConfig = server.effective.connConfig := by
    unfold ClientSetup.normalized
    rw [hsettings]
  have hhandshake : server.normalized.handshakeTimeout = client.normalized.handshakeTimeout := by
    unfold ClientSetup.normalized
    rw [hsettings]
    rfl
  -- The defaults of the queues do not touch what `Live` reads.
  have hlive : server.normalized.connConfig.Live :=
    ⟨h.effective_live.deadline, h.effective_live.fits, h.effective_live.covered⟩
  refine ⟨withDefaults_normalized hsettings, hhandshake, ?_, ?_, hlive.not_lacksTimeout, ?_,
    hlive.withDefaults⟩
  · rcases newServerConfigBy_cases roundsExactly_fitInt64 hserver with ⟨-, heq⟩ | ⟨hnot, -⟩
    · exact heq
    · exact absurd h hnot
  · rcases normalizeClientConfigBy_cases roundsExactly_fitInt64 hclient with ⟨-, heq⟩ | ⟨hnot, -⟩
    · exact heq
    · exact absurd hclientAcceptable hnot
  · rw [hconfig]
    exact h.effective_live.not_lacksTimeout

/-- Keepalive every 30 seconds with no timeout set, and reads that wait 90 seconds. -/
def sampleSettings : RuntimeSettings where
  handshakeTimeout := 0
  readTimeout := 90000000000
  writeTimeout := 0
  idleTimeout := 60000000000
  keepaliveInterval := 30000000000
  keepaliveTimeout := 0
  handlerShutdownTimeout := 0
  outboundQueue := 0
  handlerQueue := 0
  handler := true

def sampleClientSetup : ClientSetup :=
  ⟨⟨plainKey 1, (plainKey 2).publicKey.val⟩, sampleSettings⟩

def sampleServerSetup : ServerSetup :=
  ⟨⟨plainKey 2, [], 0⟩, sampleSettings, 0, 0, false, false⟩

theorem settings_validated_alike_sample :
    ∃ s c, newServerConfig plainExchange sampleServerSetup = .ok s ∧
      normalizeClientConfig plainExchange sampleClientSetup = .ok c ∧
      s.connConfig.withDefaults = c.connConfig.withDefaults ∧
      s.keepaliveTimeout = 60000000000 ∧ s.connConfig.withDefaults.Live := by
  have hclient : sampleClientSetup.Provisioned plainExchange :=
    ⟨by decide, by decide, by decide⟩
  have hserver : sampleServerSetup.Provisioned plainExchange :=
    ⟨by decide, by decide, by decide, by decide⟩
  have h := settings_validated_alike plainExchange sampleClientSetup sampleServerSetup hclient
    hserver rfl
  have hs : newServerConfig plainExchange sampleServerSetup = .ok sampleServerSetup.normalized :=
    rfl
  obtain ⟨c, hc⟩ := h.1.mp ⟨_, hs⟩
  have hfacts := h.2 _ c hs hc
  exact ⟨_, c, hs, hc, hfacts.1, by decide, hfacts.2.2.2.2.2.2⟩

end DgProto
