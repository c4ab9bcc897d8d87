import CosKernel.Clipboard.Model
import CosKernel.Fat32.Model
import CosKernel.Notifications.Model
import CosKernel.Usb.Model

/-!
# The background services that post notifications (`services.c`)

The disk indexer, the input monitor and the clipboard daemon are tasks of their own. One turn of the
loop of each, from one `task_yield` to the next, is one step here, and the steps of the three come in
any order, with the steps of other tasks between them. A turn yields the notifications that it posts;
they are posted to the center one after the other.
-/

namespace CosKernel.Services

open Notifications

/-- What the three services and those that they call keep. `had_keyboard` and `had_mouse` are local
to the loop of the input monitor. -/
structure State where
  disk : Fat32.State
  usb : Usb.UsbState
  clipboard : Clipboard.ClipboardState
  diskIndexReady : Bool
  diskIndexedFiles : UInt32
  hadKeyboard : Bool
  hadMouse : Bool
  clipboardSnapshot : Vector UInt8 Clipboard.snapshotSize

/-- The notification of a call `notification_post(title, message, priority)`. -/
def notice (title message : String) (priority : Int) : NotificationT := ⟨chars title, chars message, priority, true⟩

def indexed : NotificationT := notice "Disk/File Indexer" "FAT32 root directory indexed" 0
def indexingFailed : NotificationT := notice "Disk/File Indexer" "Indexing failed" 1
def keyboardDetected : NotificationT := notice "Input Monitor" "USB keyboard detected" 0
def mouseDetected : NotificationT := notice "Input Monitor" "USB mouse detected" 0
def clipboardUpdated : NotificationT := notice "Clipboard Daemon" "Clipboard contents updated" 0

/-- `disk_index_callback` for every file that was listed -/
def diskIndexCount (files : List (List UInt8 × UInt32)) : UInt32 := files.foldl (fun count _ => count + 1) 0

/-- A turn of `disk_indexer_service`; `none` when the directory's chain is not at its end after `fuel`
clusters. -/
def diskIndexerService (ahci : Fat32.Ahci) (stack : Nat → UInt8) (fuel : Nat) (s : State) :
    Option (List NotificationT × State) :=
  if s.diskIndexReady then some ([], s)
  else
    (Fat32.fat32EnumerateRoot ahci stack fuel true s.disk).map fun r =>
      if r.1 then
        ([indexed], { s with
          diskIndexReady := true
          diskIndexedFiles := diskIndexCount r.2 })
      else ([indexingFailed], s)

/-- A turn of `input_monitor_service`, with the port status words that `usb_poll` meets. -/
def inputMonitorService (words : Nat → UInt32) (s : State) : List NotificationT × State :=
  let usb := Usb.usbPoll s.usb words
  let hasKeyboard := Usb.usbHasKeyboard usb
  let hasMouse := Usb.usbHasMouse usb
  ((if hasKeyboard && !s.hadKeyboard then [keyboardDetected] else []) ++
      (if hasMouse && !s.hadMouse then [mouseDetected] else []),
    { s with
      usb := usb
      hadKeyboard := hasKeyboard
      hadMouse := hasMouse })

/-- A turn of `clipboard_daemon_service`. -/
def clipboardDaemonService (s : State) : List NotificationT × State :=
  let r := Clipboard.clipboardDaemonService s.clipboard s.clipboardSnapshot
  (if r.2 then [clipboardUpdated] else [], { s with clipboardSnapshot := r.1 })

/-! ## Histories -/

/-- A turn of a service, or a call made by other tasks. -/
inductive Event where
  | diskIndexer (ahci : Fat32.Ahci) (stack : Nat → UInt8)
  | inputMonitor (words : Nat → UInt32)
  | clipboardDaemon
  | usbPoll (words : Nat → UInt32)
  | clipboard (c : Clipboard.Call)
  | post (title message : List UInt8) (priority : Int)

/-- Who posts a notification. -/
inductive Poster where
  | diskIndexer
  | inputMonitor
  | clipboardDaemon
  | other
deriving DecidableEq

def Event.poster : Event → Poster
  | .diskIndexer _ _ => .diskIndexer
  | .inputMonitor _ => .inputMonitor
  | .clipboardDaemon => .clipboardDaemon
  | .usbPoll _ => .other
  | .clipboard _ => .other
  | .post _ _ _ => .other

/-- The notifications that an event posts, and the services after it. -/
def turn (fuel : Nat) (s : State) : Event → Option (List NotificationT × State)
  | .diskIndexer ahci stack => diskIndexerService ahci stack fuel s
  | .inputMonitor words => some (inputMonitorService words s)
  | .clipboardDaemon => some (clipboardDaemonService s)
  | .usbPoll words => some ([], { s with usb := Usb.usbPoll s.usb words })
  | .clipboard c => some ([], { s with clipboard := Clipboard.step s.clipboard c })
  | .post title message priority => some ([⟨title, message, priority, true⟩], s)

/-- The calls of `notification_post` in their order. -/
def postAll (posts : List NotificationT) (center : Center) : Center :=
  posts.foldl (fun center n => notificationPost n.title n.message n.priority center) center

/-- The services and the notification center, with a record of the posts and of who made them. The
record is kept from the events only. -/
structure History where
  services : State
  center : Center
  record : List (Poster × NotificationT)

def step (fuel : Nat) (h : History) (e : Event) : Option History :=
  (turn fuel h.services e).map fun r =>
    ⟨r.2, postAll r.1 h.center, h.record ++ r.1.map fun n => (e.poster, n)⟩

/-- The services as the loader leaves them, on a disk and a controller as they were found, and the
center with the notification of `kernel_main`. -/
def boot (disk : Fat32.State) (controller : Option Usb.Controller) (center : Center) : History where
  services :=
    { disk := disk
      usb := Usb.boot controller
      clipboard := Clipboard.clipboardInitialize Clipboard.bss
      diskIndexReady := false
      diskIndexedFiles := 0
      hadKeyboard := false
      hadMouse := false
      clipboardSnapshot := Vector.replicate Clipboard.snapshotSize 0 }
  center := notificationPost (chars "Welcome") (chars "System started") 0 (notificationCenterInitialize center)
  record := [(.other, notice "Welcome" "System started" 0)]

/-- The posts of one of them. -/
def History.postsOf (h : History) (p : Poster) : List NotificationT :=
  h.record.filterMap fun e => if e.1 = p then some e.2 else none

end CosKernel.Services
