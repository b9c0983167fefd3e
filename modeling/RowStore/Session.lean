/-
# RowStore.Session -- a client and what it holds on to

A session works on one store.  It keeps, under names of its own choice, transactions
to be ended, pages, cursors and running plans.  A page that was got from the pool
stays the same page for everyone who holds it: as long as it is resident the session
uses the resident version, and afterwards all names for it share the last version
(`refresh`).  A cursor or a plan whose call had to wait for a lock is given up.
-/
import RowStore.Query.Plan
import RowStore.Store.Completion
import RowStore.Store.Tables

namespace RowStore

set_option autoImplicit false

/-- The store of a session, or only its files when it could not be opened again. -/
inductive Base where
  | running (store : Store)
  | closed (disk : Disk)

namespace Base

def disk : Base → Disk
  | .running store => store.disk
  | .closed disk => disk

def withDisk (base : Base) (disk : Disk) : Base :=
  match base with
  | .running store => .running { store with disk }
  | .closed _ => .closed disk

end Base

/-- Why a request of the client was not carried out. -/
inductive Refusal where
  | noHandle
  | noStore
  | stopped (cause : Stop)
deriving DecidableEq, Repr

structure Session where
  base : Base
  /-- Transactions that were begun and not ended. -/
  live : List TxnId
  pages : FinMap String Frame
  privatePages : FinMap String Page
  cursors : FinMap String Cursor
  plans : FinMap String Running

/-- A request of the client. -/
abbrev Request (α : Type) := ExceptT Refusal (StateM Session) α

namespace Session

variable {α : Type}

/-- A session without handles. -/
def withoutHandles (base : Base) : Session := ⟨base, [], ∅, ∅, ∅, ∅⟩

/-- Open a store in an empty directory. -/
def open? (settings : Settings) : Except Fault Session :=
  (Store.openOn settings (Disk.new settings.directory)).map fun store =>
    withoutHandles (.running store)

/-- A held page as the store has it, if it is still resident. -/
def current (store : Store) (frame : Frame) : Frame :=
  match store.pool.find? frame.stamp with
  | some (_, resident) => resident
  | none => frame

/-- Bring the held pages up to date with the resident ones. -/
def refresh (s : Session) : Session :=
  match s.base with
  | .running store =>
      { s with
        pages := ⟨s.pages.entries.map fun e => (e.1, current store e.2), by
          rw [List.map_map]; exact s.pages.nodup⟩ }
  | .closed _ => s

/-! ## Requests on the store -/

def store : Request Store := do
  match (← get).base with
  | .running store => return store
  | .closed _ => throw .noStore

def setStore (store : Store) : Request Unit :=
  modify fun s => refresh { s with base := .running store }

/-- An answer, or the refusal that a stop amounts to. -/
def ofStop : Except Stop α → Request α
  | .ok a => pure a
  | .error stop => throw (.stopped stop)

/-- Run an action on the store. -/
def perform (action : StoreAction α) : Request α := do
  let (answer, after) := action (← store)
  setStore after
  ofStop answer

/-- Look at the store. -/
def inspect (look : Store → α) : Request α := do return look (← store)

/-- Open the store again over the same files.  Every handle is dropped; if the settings
are refused, only the files remain. -/
def reopen (settings : Settings) : Request Unit := do
  let disk := (← get).base.disk
  match Store.openOn settings disk with
  | .ok store => set (withoutHandles (.running store))
  | .error fault =>
      set (withoutHandles (.closed disk))
      throw (.stopped (.fault fault))

/-! ## Files -/

/-- The canonical path of a table's file in the home directory. -/
def locate (name : String) : Request String := do
  let disk := (← get).base.disk
  match disk.locate (Path.ofTable disk.homePath name) with
  | .ok path => return path
  | .error fault => throw (.stopped (.fault (.file fault)))

/-- Put a file in the place of a table's, without the store's knowledge. -/
def putFile (name : String) (content : FileContent) : Request Unit := do
  let path ← locate name
  modify fun s => { s with base := s.base.withDisk (s.base.disk.write path content) }

def getFile (name : String) : Request Image := do
  let path ← locate name
  match (← get).base.disk.read? path with
  | some content => return content.image
  | none => throw (.stopped (.fault (.file .noSuchFile)))

/-! ## Transactions -/

def begin : Request TxnId := do
  let txn ← perform StoreAction.begin
  modify fun s => { s with live := txn :: s.live }
  return txn

def requireLive (txn : TxnId) : Request Unit := do
  let _ ← store
  if !(← get).live.contains txn then throw .noHandle

/-- End a transaction that was begun; its handle is gone whatever comes of it. -/
def endWith (finish : TxnId → StoreAction Unit) (txn : TxnId) : Request Unit := do
  requireLive txn
  modify fun s => { s with live := s.live.erase txn }
  perform (finish txn)

def commit (txn : TxnId) : Request Unit := endWith StoreAction.commit txn

def rollback (txn : TxnId) : Request Unit := endWith StoreAction.rollback txn

/-- How a transaction that was begun is shown. -/
def describe (txn : TxnId) : Request String := do
  requireLive txn
  return s!"Transaction \x7b id: TransactionId({txn.value}), completed: false \x7d"

/-! ## Held pages -/

/-- The value under a name. -/
def held (find : Session → Option α) : Request α := do
  match find (← get) with
  | some a => return a
  | none => throw .noHandle

/-- Get a page, and keep it if a name is given. -/
def readPage (txn : TxnId) (id : PageId) (mode : LockMode) (name? : Option String) :
    Request Frame := do
  let frame ← perform (StoreAction.readPage txn id mode)
  match name? with
  | some name => modify fun s => { s with pages := s.pages.insert name frame }
  | none => pure ()
  return frame

/-- Let every name of the page have the changed version, and the pool if it has it. -/
def shareChange (stamp : Nat) (page : Page) : Request Unit := do
  let s ← store
  match s.pool.find? stamp with
  | some (index, _) => setStore { s with pool := s.pool.setPage index page }
  | none =>
      modify fun session =>
        { session with
          pages := ⟨session.pages.entries.map fun e =>
              (e.1, if e.2.stamp = stamp then { e.2 with page } else e.2), by
            rw [List.map_map]; exact session.pages.nodup⟩ }

def ofFault : Except Fault α → Request α
  | .ok a => pure a
  | .error fault => throw (.stopped (.fault fault))

/-- Run an action on a held page. -/
def onPage (name : String) (action : PageAction α) : Request α := do
  let _ ← store
  let frame ← held fun s => s.pages.get? name
  let (answer, page) := action frame.page
  shareChange frame.stamp page
  ofFault answer

/-- Whether two names stand for the same page instance. -/
def samePage (a b : String) : Request Bool := do
  let _ ← store
  let first ← held fun s => s.pages.get? a
  let second ← held fun s => s.pages.get? b
  return first.stamp = second.stamp

/-- Read a page from disk, past the pool, and keep it if a name is given. -/
def readPrivate (table : TableId) (id : PageId) (name? : Option String) : Request Page := do
  let page ← perform do
    let file ← StoreAction.tableFile table
    StoreAction.query fun s => s.readFromDisk file id
  match name? with
  | some name => modify fun s => { s with privatePages := s.privatePages.insert name page }
  | none => pure ()
  return page

/-- Run an action on a page that only the session has. -/
def onPrivatePage (name : String) (action : PageAction α) : Request α := do
  let _ ← store
  let page ← held fun s => s.privatePages.get? name
  let (answer, after) := action page
  modify fun s => { s with privatePages := s.privatePages.insert name after }
  ofFault answer

/-- Write a page that only the session has to a table's file; the answer is the number
of pages of the file. -/
def writePrivate (table : TableId) (name : String) : Request Nat := do
  let file ← perform (StoreAction.tableFile table)
  let page ← held fun s => s.privatePages.get? name
  perform do
    set (← StoreAction.query fun s => s.writeToDisk file page)
    return (← get).pageCount file

/-! ## Cursors and plans -/

/-- Whether a stop is a wait for a lock. -/
def isWait : Except Stop α → Bool
  | .error (.blocked _ _) => true
  | _ => false

def openCursor (name : String) (txn : TxnId) (table : TableId) : Request Unit := do
  let file ← perform (StoreAction.tableFile table)
  modify fun s => { s with cursors := s.cursors.insert name (.new file txn) }

def onCursor (name : String) (step : Step Cursor α) : Request α := do
  let cursor ← held fun s => s.cursors.get? name
  let (answer, after, changed) := step (cursor, ← store)
  setStore changed
  modify fun s =>
    { s with
      cursors := if isWait answer then s.cursors.erase name else s.cursors.insert name after }
  ofStop answer

def openPlan (name : String) (txn : TxnId) (plan : Plan) : Request Unit := do
  let _ ← store
  modify fun s => { s with plans := s.plans.insert name (.new txn plan) }

def onPlan (name : String) (step : Step Running α) : Request α := do
  let running ← held fun s => s.plans.get? name
  let (answer, after, changed) := step (running, ← store)
  setStore changed
  modify fun s =>
    { s with plans := if isWait answer then s.plans.erase name else s.plans.insert name after }
  ofStop answer

/-- Run a plan from start to end. -/
def runPlan (txn : TxnId) (plan : Plan) : Request (List Row) := do
  let (answer, _, changed) := Running.collect (Running.new txn plan, ← store)
  setStore changed
  ofStop answer

end Session

end RowStore
