import ProjectOwl.Lib.Machine

/-! # The web server of the camera module

`app_main` of `esp/main/owl.c` registers two event handlers that share the
static variable `server`, and then starts the server itself.  Each run of a
handler and the final statement of `app_main` is one atomic call. -/

set_option autoImplicit false

namespace ProjectOwl.Esp

inductive Method where
  | get
  deriving DecidableEq, Repr

structure HttpdUri where
  uri : String
  method : Method
  deriving DecidableEq, Repr

def cameraGetUri : HttpdUri := ⟨"/", .get⟩

def cameraRecordGetUri : HttpdUri := ⟨"/record", .get⟩

def cameraStreamGetUri : HttpdUri := ⟨"/stream", .get⟩

section Lifecycle
variable {Handle : Type*}

/-- A server that `httpd_start` has started. -/
structure Httpd (Handle : Type*) where
  handle : Handle
  serverPort : Nat
  uris : List HttpdUri
  deriving DecidableEq, Repr

/-- The variable `server` (`none` is `NULL`) and the server that runs. -/
structure WebState (Handle : Type*) where
  server : Option Handle
  running : Option (Httpd Handle)
  deriving DecidableEq, Repr

/-- The static variable is `NULL` and no server runs when the handlers are registered. -/
def WebState.registered : WebState Handle := ⟨none, none⟩

/-- `server` is non-`NULL` exactly when a server runs, and then is its handle. -/
def WebState.Tracks (s : WebState Handle) : Prop := s.server = s.running.map Httpd.handle

/-- The server as `start_webserver` leaves it: every page is there. -/
def started (handle : Handle) : Httpd Handle :=
  ⟨handle, 8080, [cameraGetUri, cameraRecordGetUri, cameraStreamGetUri]⟩

/-- `server` mirrors the running server, which serves every page. -/
def WebState.Mirrors (s : WebState Handle) : Prop :=
  s = ⟨none, none⟩ ∨ ∃ handle, s = ⟨some handle, some (started handle)⟩

theorem WebState.Mirrors.tracks {s : WebState Handle} (mirrors : s.Mirrors) : s.Tracks := by
  rcases mirrors with rfl | ⟨handle, rfl⟩
  · rfl
  · rfl

variable [DecidableEq Handle]

instance (s : WebState Handle) : Decidable s.Tracks :=
  inferInstanceAs (Decidable (_ = _))

/-- `fresh` is the handle a successful `httpd_start` stores; a failed one stores
nothing.  It succeeds exactly when no server is running. -/
def httpdStart (fresh : Handle) (serverPort : Nat) (running : Option (Httpd Handle)) :
    Option Handle × Option (Httpd Handle) :=
  match running with
  | none => (some fresh, some ⟨fresh, serverPort, []⟩)
  | some other => (none, some other)

def httpdRegisterUriHandler (handle : Handle) (uri : HttpdUri) (running : Option (Httpd Handle)) :
    Option (Httpd Handle) :=
  running.map fun httpd =>
    if httpd.handle = handle then { httpd with uris := httpd.uris ++ [uri] } else httpd

/-- `stops` is the outcome of `httpd_stop` on the running server; `true` is `ESP_OK`. -/
def httpdStop (stops : Bool) (handle : Handle) (running : Option (Httpd Handle)) :
    Bool × Option (Httpd Handle) :=
  match running with
  | none => (false, none)
  | some httpd => if httpd.handle = handle ∧ stops then (true, none) else (false, some httpd)

def startWebserver (fresh : Handle) (running : Option (Httpd Handle)) :
    Option Handle × Option (Httpd Handle) :=
  match httpdStart fresh 8080 running with
  | (some server, running) =>
      let running := httpdRegisterUriHandler server cameraGetUri running
      let running := httpdRegisterUriHandler server cameraRecordGetUri running
      let running := httpdRegisterUriHandler server cameraStreamGetUri running
      (some server, running)
  | (none, running) => (none, running)

def stopWebserver (stops : Bool) (server : Handle) (running : Option (Httpd Handle)) :
    Bool × Option (Httpd Handle) :=
  httpdStop stops server running

def disconnectHandler (stops : Bool) (s : WebState Handle) : WebState Handle :=
  match s.server with
  | some server =>
      match stopWebserver stops server s.running with
      | (true, running) => ⟨none, running⟩
      | (false, running) => ⟨some server, running⟩
  | none => s

def connectHandler (fresh : Handle) (s : WebState Handle) : WebState Handle :=
  match s.server with
  | none =>
      let (server, running) := startWebserver fresh s.running
      ⟨server, running⟩
  | some _ => s

/-- The last statement of `app_main`, which does not look at `server`. -/
def appMainStart (fresh : Handle) (s : WebState Handle) : WebState Handle :=
  let (server, running) := startWebserver fresh s.running
  ⟨server, running⟩

inductive WebCall (Handle : Type*) where
  | gotIp (fresh : Handle)
  | disconnected (stops : Bool)
  | appMain (fresh : Handle)
  deriving DecidableEq, Repr

def WebState.step (s : WebState Handle) : WebCall Handle → WebState Handle
  | .gotIp fresh => connectHandler fresh s
  | .disconnected stops => disconnectHandler stops s
  | .appMain fresh => appMainStart fresh s

def WebState.run (calls : List (WebCall Handle)) : WebState Handle :=
  Machine.run WebState.step WebState.registered calls

theorem startWebserver_none (fresh : Handle) :
    startWebserver fresh none = (some fresh, some (started fresh)) := by
  simp [startWebserver, httpdStart, httpdRegisterUriHandler, started]

theorem startWebserver_some (fresh : Handle) (httpd : Httpd Handle) :
    startWebserver fresh (some httpd) = (none, some httpd) := rfl

/-- The call does not start a server over a running one. -/
def StartsOnce (s : WebState Handle) : WebCall Handle → Prop
  | .appMain _ => s.running = none
  | _ => True

theorem step_mirrors (s : WebState Handle) (call : WebCall Handle) (mirrors : s.Mirrors)
    (once : StartsOnce s call) : (s.step call).Mirrors := by
  rcases mirrors with rfl | ⟨handle, rfl⟩
  · cases call with
    | gotIp fresh =>
        right
        exact ⟨fresh, by simp [WebState.step, connectHandler, startWebserver_none]⟩
    | disconnected stops => exact Or.inl rfl
    | appMain fresh =>
        right
        exact ⟨fresh, by simp [WebState.step, appMainStart, startWebserver_none]⟩
  · cases call with
    | gotIp fresh => exact Or.inr ⟨handle, rfl⟩
    | disconnected stops =>
        cases stops with
        | true =>
            left
            simp [WebState.step, disconnectHandler, stopWebserver, httpdStop, started]
        | false =>
            right
            exact ⟨handle, by simp [WebState.step, disconnectHandler, stopWebserver, httpdStop]⟩
    | appMain fresh => exact absurd once (by simp [StartsOnce])

theorem second_start_loses_handle (s : WebState Handle) (call : WebCall Handle)
    (mirrors : s.Mirrors) (twice : ¬StartsOnce s call) : ¬(s.step call).Tracks := by
  cases call with
  | gotIp fresh => exact absurd trivial twice
  | disconnected stops => exact absurd trivial twice
  | appMain fresh =>
      rcases mirrors with rfl | ⟨handle, rfl⟩
      · exact absurd rfl twice
      · simp [WebState.step, appMainStart, startWebserver_some, WebState.Tracks]

/-- `server` tracks the running server in every state of a run exactly when the
last statement of `app_main` is only reached while no server is running. -/
theorem server_tracks_iff (calls : List (WebCall Handle)) :
    (∀ before, before <+: calls → (WebState.run before).Tracks) ↔
      Machine.Each WebState.step StartsOnce (WebState.registered : WebState Handle) calls := by
  have legal : Machine.Each WebState.step (fun _ _ => True)
      (WebState.registered : WebState Handle) calls :=
    Machine.each_of_forall _ (fun _ _ => trivial) _ _
  have settled : Machine.Along WebState.step WebState.Tracks (fun _ _ => True)
      WebState.registered calls ↔
        Machine.Each WebState.step StartsOnce (WebState.registered : WebState Handle) calls :=
    Machine.along_iff_each WebState.Mirrors (fun _ _ => True) StartsOnce
      (fun s mirrors => mirrors.tracks)
      (fun s call mirrors _ once => ⟨step_mirrors s call mirrors once, trivial⟩)
      (fun s call mirrors _ twice _ => second_start_loses_handle s call mirrors twice)
      (Or.inl rfl) calls legal
  rw [← settled, Machine.along_iff_visited]
  exact ⟨fun states => ⟨states, fun _ _ _ => trivial⟩, fun visited => visited.1⟩

/-- An address arrives before `app_main` ends: its last statement finds a server
running, stores `NULL`, and no later disconnect can stop that server. -/
theorem app_main_drops_handle :
    ¬(WebState.run [.gotIp 1, .appMain 2] : WebState Nat).Tracks ∧
      (WebState.run [.gotIp 1, .appMain 2, .disconnected true] : WebState Nat).running =
        some (started 1) := by
  decide

end Lifecycle

end ProjectOwl.Esp
