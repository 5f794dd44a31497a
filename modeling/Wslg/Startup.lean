import Wslg.FontOperations
import Wslg.Privileges
import Wslg.TranslatePath
/-!
# Starting up

`main.cpp` of WSLGd, from the environment to the loop of the process monitor. What a
call answers is given, and what it does is up to the world; of what `main` does itself
the trace has the launches and what decides about them, and the answers they rest on
are noted. The log is left out, and where it is written.
-/

open Lib Lib.Environ

namespace Wslg.Wslgd

/-! ## The host -/

structure Account extends passwd where
  pw_shell : CharString

/-- What is called, each as it answers; `false` and `none` are failures. -/
structure Host (W : Type) where
  /-- Built with WinPR, which has the reader of the configuration file. -/
  HAVE_WINPR : Bool
  getpwnam : CharString → W → Option Account × W
  /-- Whether there is memory for it. -/
  setenv : CharString → CharString → W → Bool × W
  unsetenv : CharString → W → Bool × W
  /-- For `popen` and `pclose`. -/
  pipes : W → Pipes × W
  /-- The keys of a section of the file, and their values. -/
  IniFile : CharString → CharString → W → List (CharString × Option CharString) × W
  geteuid : W → Nat × W
  create_directories : CharString → W → Bool × W
  chmod : CharString → Nat → W → Bool × W
  chown : CharString → Nat → Nat → W → Bool × W
  createFile : CharString → W → Bool × W
  mount : CharString → CharString → W → Bool × W
  sockets : W → SocketCalls × W
  listen : Nat → W → Bool × W
  getrlimit : W → Option Nat × W
  setrlimit : Nat → W → Bool × W
  access : CharString → W → Bool × W
  unlink : CharString → W → Bool × W
  /-- A local socket, bound to the path, with a listener. -/
  socketLocal : W → Option Nat × W
  bindLocal : Nat → CharString → W → Bool × W
  accept : Nat → W → Bool × W
  fork : W → pid_t × W
  linux : Operations.Linux W
  thread : W → Operations.Created × W

inductive StartEvent where
  | launch (childPid : pid_t) (info : ProcessInfo)
  /-- Weston has connected. -/
  | ready
  | fontMonitor
  /-- The loop of the process monitor begins. -/
  | run
  deriving DecidableEq

/-- The calls whose answers the launches rest on. -/
inductive HostCall where
  | getpwnam (name : CharString)
  | IniFile (path name : CharString)
  | geteuid
  /-- The pipes in which `wslinfo` is run, and `wslpath` for a path. -/
  | wslinfo
  | wslpath (Path : CharString)
  | mount (source target : CharString)
  | sockets

abbrev HostCall.Answer : HostCall → Type
  | .getpwnam _ => Option Account
  | .IniFile _ _ => List (CharString × Option CharString)
  | .geteuid => Nat
  | .wslinfo => Pipes
  | .wslpath _ => Pipes
  | .mount _ _ => Bool
  | .sockets => SocketCalls

def Host.perform {W : Type} (host : Host W) : (c : HostCall) → W → c.Answer × W
  | .getpwnam name => host.getpwnam name
  | .IniFile path name => host.IniFile path name
  | .geteuid => host.geteuid
  | .wslinfo => host.pipes
  | .wslpath _ => host.pipes
  | .mount source target => host.mount source target
  | .sockets => host.sockets

/-- An answer, and what had been launched when it came. -/
structure HostAnswer where
  call : HostCall
  answer : call.Answer
  launched : List StartEvent

structure StartSys (W : Type) where
  world : W
  environ : List CharString
  monitor : Monitor
  trace : List StartEvent
  answers : List HostAnswer

/-- How `main` ends before the loop. -/
inductive Ended where
  | exception
  | returned (status : Int)
  /-- A null pointer, or `back()` of an empty string. -/
  | undefined
  deriving DecidableEq

abbrev StartM (W α : Type) := EStateM Ended (StartSys W) α

section Main

variable {W : Type} (host : Host W)

namespace StartM

def call {α : Type} (f : W → α × W) : StartM W α := fun s => .ok (f s.world).1 { s with world := (f s.world).2 }

/-- A call whose answer is noted. -/
def ask (c : HostCall) : StartM W c.Answer := fun s => .ok (host.perform c s.world).1 { s with
  world := (host.perform c s.world).2
  answers := s.answers ++ [⟨c, (host.perform c s.world).1, s.trace⟩] }

def emit (e : StartEvent) : StartM W PUnit := fun s => .ok ⟨⟩ { s with trace := s.trace ++ [e] }

def throwIf (c : Bool) : StartM W PUnit := if c then throw .exception else pure ⟨⟩

def returnIf (c : Bool) (status : Int) : StartM W PUnit := if c then throw (.returned status) else pure ⟨⟩

/-- A call that must not fail. -/
def must (f : W → Bool × W) : StartM W PUnit := do throwIf !(← call f)

def orThrow {α : Type} : Option α → StartM W α
  | some a => pure a
  | none => throw .exception

def mustSome {α : Type} (f : W → Option α × W) : StartM W α := do orThrow (← call f)

def getenv (name : CharString) : StartM W (Option CharString) := fun s => .ok (Environ.getenv eqSign s.environ name) s

def environ : StartM W (List CharString) := fun s => .ok s.environ s

end StartM

open StartM

/-- A name that has a `=` or is empty is not set. -/
def setenv (name value : CharString) (override : Bool) : StartM W Bool := do
  if name.isEmpty || name.contains eqSign then pure false
  else if ← call (host.setenv name value) then
    fun s => .ok true { s with environ := Environ.setenv eqSign name value override s.environ }
  else pure false

def unsetenv (name : CharString) : StartM W Bool := do
  if ← call (host.unsetenv name) then
    fun s => .ok true { s with environ := Environ.unsetenv eqSign s.environ name }
  else pure false

/-! ## Helpers of main -/

def GetEnvBool (EnvName : CharString) (DefaultValue : Bool) : StartM W Bool := do
  match ← getenv EnvName with
  | some s =>
    if s = bytes "true" then pure true
    else if s = bytes "false" then pure false
    else if s = bytes "1" then pure true
    else if s = bytes "0" then pure false
    else pure DefaultValue
  | none => pure DefaultValue

def isspace (c : BYTE) : Bool := c = 0x20 ∨ (0x09 ≤ c ∧ c ≤ 0x0D)
def isdigit (c : BYTE) : Bool := 0x30 ≤ c ∧ c ≤ 0x39

/-- Where `strtol` stops; without digits that is where it began. -/
def strtolEnd (str : CharString) : CharString :=
  let s := str.dropWhile isspace
  let digits := if s.head? = some 0x2B ∨ s.head? = some 0x2D then s.tail else s
  if digits.head?.any isdigit then digits.dropWhile isdigit else str

def IsNumeric : Option CharString → Bool
  | none => false
  | some str => strtolEnd str = []

def translateWindowsPath (Path : CharString) : StartM W CharString := do
  match TranslateWindowsPath (← ask host (.wslpath Path)) Path with
  | .path result => pure result
  | .exception => throw .exception
  | .undefined => throw .undefined

def c_wslinfo : CharString := bytes "/usr/bin/wslinfo --vm-id -n"

def GetVmId : StartM W CharString := do
  let os : Pipes ← ask host .wslinfo
  match os.popen c_wslinfo with
  | none => throw .exception
  | some out =>
    throwIf (os.pclose c_wslinfo ≠ 0)
    return readOutput out.length out

/-! ## The environment -/

def c_userName : CharString := bytes "wslg"
def c_xdgRuntimeDir : CharString := bytes "/mnt/wslg/runtime-dir"
def c_userProfileEnv : CharString := bytes "WSL2_USER_PROFILE"
def c_installPathEnv : CharString := bytes "WSL2_INSTALL_PATH"
def c_systemDistroEnvSection : CharString := bytes "system-distro-env"
def c_sharedMemoryMountPoint : CharString := bytes "/mnt/shared_memory"
def c_sharedMemoryMountPointEnv : CharString := bytes "WSL2_SHARED_MEMORY_MOUNT_POINT"
def c_sharedMemoryObDirectoryPathEnv : CharString := bytes "WSL2_SHARED_MEMORY_OB_DIRECTORY"
def c_westonShellDesktopEnv : CharString := bytes "WSL2_WESTON_SHELL_DESKTOP"
def WAYLAND_DISPLAY : CharString := bytes "WAYLAND_DISPLAY"

/-- `envVar` -/
structure EnvVar where
  name : CharString
  value : CharString
  override : Bool
  deriving DecidableEq

def envVariables (passwordEntry : Account) : List EnvVar := [
  ⟨bytes "HOME", passwordEntry.pw_dir, true⟩,
  ⟨bytes "USER", passwordEntry.pw_name, true⟩,
  ⟨bytes "LOGNAME", passwordEntry.pw_name, true⟩,
  ⟨bytes "SHELL", passwordEntry.pw_shell, true⟩,
  ⟨bytes "PATH", bytes "/usr/sbin:/usr/bin:/sbin:/bin:/usr/games", true⟩,
  ⟨bytes "XDG_RUNTIME_DIR", c_xdgRuntimeDir, false⟩,
  ⟨WAYLAND_DISPLAY, bytes "wayland-0", false⟩,
  ⟨bytes "DISPLAY", bytes ":0", false⟩,
  ⟨bytes "XCURSOR_PATH", bytes "/mnt/wslg/distro/usr/share/icons:/usr/share/icons", false⟩,
  ⟨bytes "XCURSOR_THEME", bytes "whiteglass", false⟩,
  ⟨bytes "XCURSOR_SIZE", bytes "16", false⟩,
  ⟨bytes "PULSE_SERVER", bytes "/mnt/wslg/PulseServer", false⟩,
  ⟨bytes "PULSE_AUDIO_RDP_SINK", bytes "/mnt/wslg/PulseAudioRDPSink", false⟩,
  ⟨bytes "PULSE_AUDIO_RDP_SOURCE", bytes "/mnt/wslg/PulseAudioRDPSource", false⟩,
  ⟨bytes "WSL2_DEFAULT_APP_ICON", bytes "/usr/share/icons/wsl/linux.png", false⟩,
  ⟨bytes "WSL2_DEFAULT_APP_OVERLAY_ICON", bytes "/usr/share/icons/wsl/linux.png", false⟩]

def setVariable (v : EnvVar) : StartM W PUnit := do throwIf !(← setenv host v.name v.value v.override)

def configFilePath : StartM W CharString := do
  match ← getenv c_userProfileEnv with
  | some userProfile => return (← translateWindowsPath host userProfile) ++ bytes "/.wslgconfig"
  | none => return bytes "/mnt/c/ProgramData/Microsoft/WSL/.wslgconfig"

/-- Whether it is set is not checked. -/
def setKey (key : CharString × Option CharString) : StartM W PUnit :=
  match key.2 with
  | some value => do
    let _ ← setenv host key.1 value true
  | none => pure ⟨⟩

def SetupOptionalEnv : StartM W PUnit :=
  if host.HAVE_WINPR then do
    let path ← configFilePath host
    let keys : List (CharString × Option CharString) ← ask host (.IniFile path c_systemDistroEnvSection)
    keys.forM (setKey host)
  else pure ⟨⟩

/-- The variables, and then those of the user; then the log of the kernel, which others may write to. -/
def setUpEnvironment (passwordEntry : Account) : StartM W PUnit := do
  (envVariables passwordEntry).forM (setVariable host)
  SetupOptionalEnv host
  if ← GetEnvBool (bytes "WSLG_LOG_KMSG") false then must (host.chmod (bytes "/dev/kmsg") 0o666)

/-! ## Files and sockets -/

/-- The ID of the VM, for root only. -/
def checkHost : StartM W CharString := do
  let euid : Nat ← ask host .geteuid
  returnIf (euid ≠ 0) 1
  let vmId ← GetVmId host
  returnIf (vmId = []) 1
  return vmId

def mountFiles : StartM W PUnit := do
  must (host.createFile (bytes "/mnt/wslg/versions.txt"))
  must (host.mount (bytes "/etc/versions.txt") (bytes "/mnt/wslg/versions.txt"))
  must (host.create_directories (bytes "/mnt/wslg/doc"))
  must (host.mount (bytes "/usr/share/doc") (bytes "/mnt/wslg/doc"))

/-- A directory that everyone may write to, of the user if it is to be. -/
def makeDirectory (path : CharString) (owner : Option passwd) : StartM W PUnit := do
  must (host.create_directories path)
  match owner with
  | some user => must (host.chown path user.pw_uid user.pw_gid)
  | none => pure ⟨⟩
  must (host.chmod path 0o777)

/-- The directory of the memory that is shared, if it could be mounted. -/
def mountSharedMemory : StartM W (Option CharString) := do
  match ← getenv c_sharedMemoryObDirectoryPathEnv with
  | none => pure none
  | some path =>
    must (host.create_directories c_sharedMemoryMountPoint)
    if ← ask host (.mount (bytes "wslg") c_sharedMemoryMountPoint) then do
      must (host.chmod c_sharedMemoryMountPoint 0o777)
      pure (some path)
    else pure none

/-- All descriptors may be used. -/
def raiseLimit : StartM W PUnit := do
  let limit ← mustSome host.getrlimit
  must (host.setrlimit limit)

/-- The socket of the RDP connection. -/
def listenForRdp : StartM W Vsock := do
  match bindVsock (← ask host .sockets) MAX_RESERVED_PORT with
  | .error _ => throw .exception
  | .ok v =>
    must (host.listen v.socketFd)
    raiseLimit host
    return v

/-- The children know of the memory exactly if it is there. -/
def exportSharedMemory (sharedMemory : Option CharString) : StartM W (Option CharString) := do
  let isSet ← if sharedMemory.isSome then setenv host c_sharedMemoryMountPointEnv c_sharedMemoryMountPoint true else pure false
  if isSet then pure sharedMemory
  else do
    throwIf !(← unsetenv host c_sharedMemoryMountPointEnv)
    return none

/-! ## Weston -/

def c_notifySocket : CharString := bytes "/mnt/wslg/weston-notify.sock"

def SetupReadyNotify (socket_path : CharString) : StartM W Nat := do
  let _ ← call (host.unlink socket_path)
  let socketFd ← mustSome host.socketLocal
  must (host.bindLocal socketFd socket_path)
  must (host.listen socketFd)
  return socketFd

/-- The default is the shell for single windows. -/
def westonShellName (isRdpDesktopShell : Bool) : CharString :=
  if isRdpDesktopShell then bytes "desktop-shell" else bytes "rdprail-shell"

def westonLoggerOption (isRdpDesktopShell : Bool) : CharString :=
  bytes "--logger-scopes=log,rdp-backend" ++ if isRdpDesktopShell then [] else bytes "," ++ bytes "rdprail-shell"

def westonLogFileOption (logFilePath : Option CharString) : CharString :=
  bytes "--log=" ++ logFilePath.getD (bytes "/mnt/wslg/weston.log")

/-- In front of weston, if there is a debugger and a port for it. -/
def gdbServer (executable : Bool) (port : Option CharString) : CharString :=
  if executable && IsNumeric port then bytes "/usr/bin/gdbserver" ++ bytes " :" ++ port.getD [] ++ bytes " " else []

/-- What the command line of weston is made of. -/
structure WestonOptions where
  gdbServer : CharString
  display : CharString
  isRdpDesktopShell : Bool
  logFilePath : Option CharString
  deriving DecidableEq

def WestonOptions.westonArgs (o : WestonOptions) : CharString :=
  o.gdbServer ++ bytes "/usr/bin/weston " ++ bytes "--backend=rdp-backend.so --modules=wslgd-notify.so --xwayland " ++
    (bytes "--socket=" ++ o.display) ++ bytes " " ++ (bytes "--shell=" ++ westonShellName o.isRdpDesktopShell ++ bytes ".so") ++
    bytes " " ++ westonLogFileOption o.logFilePath ++ bytes " " ++ westonLoggerOption o.isRdpDesktopShell

/-- With the socket on which weston says that it is ready. -/
def westonOptions : StartM W (WestonOptions × Nat) := do
  match ← getenv WAYLAND_DISPLAY with
  | none => throw .undefined
  | some display =>
    let isRdpDesktopShell ← GetEnvBool c_westonShellDesktopEnv false
    let logFilePath ← getenv (bytes "WSLG_WESTON_LOG_PATH")
    let notifyFd ← SetupReadyNotify host c_notifySocket
    let gdbServerPort ← getenv (bytes "WSLG_WESTON_GDBSERVER_PORT")
    let executable ← call (host.access (bytes "/usr/bin/gdbserver"))
    return (⟨gdbServer executable gdbServerPort, display, isRdpDesktopShell, logFilePath⟩, notifyFd)

/-- `monitor.LaunchProcess` -/
def launch (info : ProcessInfo) : StartM W PUnit := do
  let childPid ← call host.fork
  fun s => match LaunchProcess s.monitor childPid info with
    | none => .error .exception s
    | some monitor => .ok ⟨⟩ { s with monitor := monitor, trace := s.trace ++ [.launch childPid info] }

/-- Weston is started, and it connects. -/
def launchWeston (v : Vsock) (o : WestonOptions) (notifyFd : Nat) : StartM W PUnit := do
  launch host (westonProcess (← environ) v o.westonArgs)
  must (host.accept notifyFd)
  emit .ready
  let _ ← call (host.unlink c_notifySocket)

def startFontMonitor : StartM W PUnit := do
  if ← GetEnvBool (bytes "WSLG_USE_USER_DISTRO_XFONTS") true then
    let thread ← call host.thread
    call fun w => (⟨⟩, (Operations.FontMonitor.new.Start host.linux thread ⟨w, []⟩).2.world)
    emit .fontMonitor

/-! ## The other processes -/

/-- GNU's `basename`: what follows the last slash. -/
def basename (path : CharString) : CharString := (path.reverse.takeWhile (· ≠ 0x2F)).reverse

/-- The client that comes with WSL, or else the one of Windows. -/
def rdpClientExePath (wslInstallPath : CharString) : StartM W CharString := do
  let mstsc := Operations.slash (bytes "/mnt/c/Windows/System32") (bytes "mstsc.exe")
  let isUseMstsc ← GetEnvBool (bytes "WSLG_USE_MSTSC") false
  if !isUseMstsc ∧ wslInstallPath ≠ [] then do
    let msrdc := Operations.slash (← translateWindowsPath host wslInstallPath) (bytes "msrdc.exe")
    if ← call (host.access msrdc) then pure msrdc else pure mstsc
  else pure mstsc

def wslDvcPlugin (isWslInstallPathEnvPresent : Bool) : StartM W CharString := do
  if ← GetEnvBool (bytes "WSLG_USE_WSLDVC_PRIVATE") false then pure (bytes "/plugin:WSLDVC_PRIVATE")
  else if isWslInstallPathEnvPresent then pure (bytes "/plugin:WSLDVC_PACKAGE")
  else pure (bytes "/plugin:WSLDVC")

/-- What the client is told. -/
structure ClientOptions where
  exePath : CharString
  vmId : CharString
  port : Nat
  plugin : CharString
  sharedMemory : Option CharString
  installPath : CharString
  isRdpDesktopShell : Bool
  deriving DecidableEq

def ClientOptions.sharedMemoryObPath (o : ClientOptions) : CharString :=
  match o.sharedMemory with
  | some path => bytes "/wslgsharedmemorypath:" ++ path
  | none => []

def ClientOptions.rdpFilePath (o : ClientOptions) : CharString :=
  o.installPath ++ bytes "\\" ++ if o.isRdpDesktopShell then bytes "wslg_desktop.rdp" else bytes "wslg.rdp"

def ClientOptions.process (o : ClientOptions) : ProcessInfo where
  argv := [bytes "/init", o.exePath, basename o.exePath, bytes "/wslg", bytes "/silent", bytes "/v:" ++ o.vmId,
    bytes "/hvsocketserviceid:" ++ ToServiceId o.port, o.plugin, o.sharedMemoryObPath, o.rdpFilePath]
  capabilities := []
  env := []

def c_defaultInstallPath : CharString := bytes "C:\\ProgramData\\Microsoft\\WSL"

def dbusProcess : ProcessInfo where
  argv := [bytes "/usr/bin/dbus-daemon", bytes "--syslog", bytes "--nofork", bytes "--nopidfile", bytes "--system"]
  capabilities := [CAP_SETGID, CAP_SETUID]
  env := []

def pulseaudioLaunchArgs (logFilePath : Option CharString) : CharString :=
  bytes "/usr/bin/dbus-launch /usr/bin/pulseaudio --log-time=true --disallow-exit=true --exit-idle-time=-1 " ++
    bytes "--load=\"module-rdp-sink sink_name=RDPSink\" --load=\"module-rdp-source source_name=RDPSource\" " ++
    bytes "--load=\"module-native-protocol-unix socket=/mnt/wslg/PulseServer auth-anonymous=true\" " ++
    (bytes "--log-target=" ++ logFilePath.getD (bytes "newfile:/mnt/wslg/pulseaudio.log"))

def pulseaudioProcess (logFilePath : Option CharString) : ProcessInfo where
  argv := [bytes "/usr/bin/sh", bytes "-c", pulseaudioLaunchArgs logFilePath]
  capabilities := []
  env := []

def launchClient (vmId : CharString) (installPath : Option CharString) (v : Vsock) (isRdpDesktopShell : Bool)
    (sharedMemory : Option CharString) : StartM W PUnit := do
  let wslInstallPath := installPath.getD c_defaultInstallPath
  let exePath ← rdpClientExePath host wslInstallPath
  let plugin ← wslDvcPlugin installPath.isSome
  launch host (ClientOptions.process ⟨exePath, vmId, v.address.svm_port, plugin, sharedMemory, wslInstallPath, isRdpDesktopShell⟩)

def launchPulseaudio : StartM W PUnit := do
  launch host (pulseaudioProcess (← getenv (bytes "WSLG_PULSEAUDIO_LOG_PATH")))

/-! ## main -/

/-- What has to be there before anything is launched: the ID of the VM, the path of the installation, the socket and
the memory that is shared. -/
def prepare : StartM W (CharString × Option CharString × Vsock × Option CharString) := do
  let passwordEntry ← orThrow (← ask host (.getpwnam c_userName))
  setUpEnvironment host passwordEntry
  let vmId ← checkHost host
  let installPath ← getenv c_installPathEnv
  mountFiles host
  makeDirectory host (bytes "/var/run/dbus") (some passwordEntry.topasswd)
  makeDirectory host (bytes "/mnt/wslg/.X11-unix") none
  makeDirectory host c_xdgRuntimeDir (some passwordEntry.topasswd)
  let mounted ← mountSharedMemory host
  let v ← listenForRdp host
  return (vmId, installPath, v, ← exportSharedMemory host mounted)

/-- `main` up to the loop. -/
def start : StartM W PUnit := do
  let (vmId, installPath, v, sharedMemory) ← prepare host
  let (o, notifyFd) ← westonOptions host
  launchWeston host v o notifyFd
  startFontMonitor host
  launchClient host vmId installPath v o.isRdpDesktopShell sharedMemory
  launch host dbusProcess
  launchPulseaudio host
  emit .run

end Main

def StartSys.begin {W : Type} (w : W) (environ : List CharString) : StartSys W := ⟨w, environ, .new, [], []⟩

end Wslg.Wslgd
