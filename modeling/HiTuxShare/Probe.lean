import HiTuxShare.SharingController

namespace HiTuxShare
set_option autoImplicit true

/-- The part of the command line client's `main` that has to do with sharing. The listener sets
`shouldStartScan` at every login. -/
structure Probe where
  shareDirectory : String
  shouldStartScan : Bool := false
  scanner : ShareScanner := {}
  uploadServer : ListeningServer
  sharedFiles : Hashtable String SharedFile := .empty
  sharedSoFar : UInt32 := 0
  connection : ConnectionWorld := {}
  output : List String := []

namespace Probe

def printf (p : Probe) (line : String) : Probe := { p with output := p.output ++ [line] }

def listen (p : Probe) (answer : ListenAnswer) : Probe :=
  let (uploadServer, listenPort) :=
    p.uploadServer.startListening answer defaultTransferPort transferPortRange
  if 0 < listenPort then
    { p with
      uploadServer := uploadServer.setLocalIdentity p.connection.localSessionId
      connection := p.connection.setAdvertisedPort listenPort.toUInt32.toInt32 }.printf
        ("*** Accepting downloads on port " ++ toString listenPort)
  else
    { p with uploadServer }.printf "*** Could not listen on any port; sharing read-only."

/-- Nothing is taken back of an earlier scan, neither the table nor the count. -/
def startScan (p : Probe) (answer : ListenAnswer) (fs : FileSystem) (created : Bool) : Probe :=
  if p.shouldStartScan = true ∧ p.shareDirectory ≠ "" then
    let p := ({ p with shouldStartScan := false }.listen answer).printf
      ("*** Sharing " ++ p.shareDirectory)
    { p with
      scanner := { p.scanner with shareDirectory := p.shareDirectory }.startScan fs created }
  else p

def publishDiscovered (p : Probe) (discovered : List SharedFile) : Probe :=
  let sharedFiles := discovered.foldl (fun files file => files.put file.fileName file) p.sharedFiles
  { p with
    connection := p.connection.publishSharedFiles discovered
    sharedFiles
    uploadServer := p.uploadServer.setSharedFiles sharedFiles
    sharedSoFar := p.sharedSoFar + UInt32.ofNat discovered.length }

def publishScanEnd (p : Probe) : Probe :=
  let duplicates := p.scanner.duplicateNameCount
  { p with connection := p.connection.publishSharedFileCount p.sharedSoFar }.printf
    ("*** Sharing " ++ toString p.sharedSoFar ++ " file(s)" ++
      (if 0 < duplicates then
        "; " ++ toString duplicates ++ " skipped for having a name another file already used"
      else "") ++ ".")

def drainFiles (p : Probe) : Probe :=
  let (discovered, scanner) := p.scanner.takeDiscoveredFiles
  let p := { p with scanner }
  if discovered = [] then p else p.publishDiscovered discovered

def drainScanEnd (p : Probe) : Probe :=
  let (finished, scanner) := p.scanner.takeScanFinished
  let p := { p with scanner }
  if finished then p.publishScanEnd else p

def threadStep (p : Probe) (fs : FileSystem) : Probe :=
  { p with scanner := p.scanner.threadStep fs }

/-- The end of the loop's body. -/
def drainScanner (p : Probe) (between : List FileSystem) : Probe :=
  (between.foldl threadStep p.drainFiles).drainScanEnd

end Probe

end HiTuxShare
