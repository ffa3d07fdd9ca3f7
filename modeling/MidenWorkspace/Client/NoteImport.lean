import Mathlib.Data.List.ReduceOption
import MidenWorkspace.Client.StoreRun

/-!
Contract: the notes that enter the store of a client without a synchronisation.

A user imports files with the identifier, the details or the proof of a note, the transport
layer hands over details, and the request for a transaction brings the notes to consume. Owns
what the client asks for each of these notes and which rows it writes, also where a failure
leaves only some of them written.

Does not own the table of the tags, the block headers, and how a transaction is executed.
-/

namespace MidenWorkspace.Client

open Library (OrderedMap)
open Library.Structured
open NoteUpdateTracker

variable {μ π : Type}

/-! ### Requests to the node -/

inductive NoteFile (μ π : Type) where
  | noteId (noteId : NoteId)
  | noteDetails (details : NoteDetails) (afterBlockNum : BlockNumber) (tag : Option NoteTag)
  | noteWithProof (details : NoteDetails) (metadata : μ) (inclusionProof : π)

def NoteFile.id : NoteFile μ π → NoteId
  | .noteId own => own
  | .noteDetails details _ _ | .noteWithProof details _ _ => details.id

inductive FetchedNote (μ π : Type) where
  | privateNote (noteId : NoteId) (metadata : μ) (inclusionProof : π)
  | publicNote (details : NoteDetails) (metadata : μ) (inclusionProof : π)

namespace FetchedNote

def id : FetchedNote μ π → NoteId
  | privateNote noteId _ _ => noteId
  | publicNote details _ _ => details.id

def metadata : FetchedNote μ π → μ
  | privateNote _ metadata _ | publicNote _ metadata _ => metadata

def inclusionProof : FetchedNote μ π → π
  | privateNote _ _ proof | publicNote _ _ proof => proof

end FetchedNote

/-- What an import is given besides the notes of the store. -/
structure ImportContext (μ π : Type) where
  currentTimestamp : Option Nat
  getSyncHeight : Except ClientError BlockNumber
  tag : μ → NoteTag
  getNotesById : List NoteId → Except ClientError (List (FetchedNote μ π))
  getNullifierCommitHeights : List Nullifier → BlockNumber →
    Except ClientError (OrderedMap Nullifier (Option BlockNumber))
  /-- The blocks with notes of one of the tags, between two blocks. -/
  syncNotesWithDetails : BlockNumber → BlockNumber → List NoteTag →
    Except ClientError (List (NoteBlock μ π))
  getAndStoreAuthenticatedBlock : BlockNumber → Except ClientError BlockHeader
  insertNoteTag : NoteTag → NoteId → Except ClientError Unit
  removeNoteTag : NoteTag → NoteId → Except ClientError Unit
  /-- Whether the row of the note can be written. -/
  upsertInputNote : NoteId → Except ClientError Unit

structure ProofRequest (μ π : Type) where
  previousNote : Option (InputNoteRecord μ π)
  details : NoteDetails
  metadata : μ
  inclusionProof : π

structure DetailsRequest (μ π : Type) where
  previousNote : Option (InputNoteRecord μ π)
  details : NoteDetails
  afterBlockNum : BlockNumber
  tag : Option NoteTag

/-- `u32::MAX`. -/
def maxBlockNumber : BlockNumber := 4294967295

namespace ImportContext

variable (context : ImportContext μ π) (scheme : NoteScheme μ π)

/-- `check_expected_notes`. A note without metadata would make the client panic. -/
def checkExpectedNotes (requestBlockNum : BlockNumber) (expectedNotes : List (NoteId × NoteTag)) :
    Except ClientError (OrderedMap NoteId (μ × π)) := do
  let currentBlockNum ← context.getSyncHeight
  if requestBlockNum > currentBlockNum then
    return ∅
  else do
    let blocks ← context.syncNotesWithDetails requestBlockNum currentBlockNum
      (expectedNotes.map Prod.snd)
    let syncNotes := (blocks.takeWhile fun block =>
      block.blockHeader.blockNum ≤ currentBlockNum).flatMap fun block => block.notes.values
    let retrieved ← (syncNotes.filter fun note =>
      expectedNotes.any fun expected => expected.1 = note.noteId).mapM fun note => do
        let metadata ← note.fullMetadata
        return (note.noteId, metadata, note.inclusionProof)
    return OrderedMap.collect retrieved

/-- The record that a note with a proof starts from. -/
def startByProof (request : ProofRequest μ π) : InputNoteRecord μ π :=
  request.previousNote.getD ⟨request.details, context.currentTimestamp,
    .expected (some request.metadata) (scheme.blockNum request.inclusionProof)
      (some (context.tag request.metadata))⟩

/-- The record that a note with details starts from. -/
def startByDetails (request : DetailsRequest μ π) : InputNoteRecord μ π :=
  request.previousNote.getD ⟨request.details, context.currentTimestamp,
    .expected none request.afterBlockNum request.tag⟩

/-- `try_into` of a record to the record of its tag. -/
def tagOf (record : InputNoteRecord μ π) : Except ClientError NoteTag :=
  match record.state.metadata with
  | some metadata => .ok (context.tag metadata)
  | none => .error (.noteRecordError (.conversionError "Input Note Record does not contain tag"))

section Records

/-- The block of the proof verifies the note, if the client has synchronised to it. A note of a
later block stays unverified until then. -/
def verifyByBlock (currentBlockNum : BlockNumber) (request : ProofRequest μ π)
    (record : InputNoteRecord μ π) : Except ClientError (Option (InputNoteState μ π)) :=
  let blockHeight := scheme.blockNum request.inclusionProof
  if blockHeight ≤ currentBlockNum then do
    let header ← context.getAndStoreAuthenticatedBlock blockHeight
    liftRecord (record.state.blockHeaderReceived scheme record.id header)
  else do
    context.insertNoteTag (context.tag request.metadata) record.id
    return none

variable [DecidableEq μ] [DecidableEq π]

/-- The body of the second loop of `import_note_records_by_proof`, with what it pushes. -/
def importNoteRecordByProof (heights : OrderedMap Nullifier (Option BlockNumber))
    (request : ProofRequest μ π) : Except ClientError (List (Option (InputNoteRecord μ π))) :=
  let record := context.startByProof scheme request
  match heights[record.nullifier]? with
  | some (some blockHeight) => do
      -- The nullifier is the one of the record, so that the record does not refuse it.
      let consumed ← liftRecord (record.state.consumedExternally blockHeight none)
      return if consumed.isSome then [some (record.withState consumed), none] else [none]
  | _ => do
      let currentBlockNum ← context.getSyncHeight
      let included ← liftRecord
        (record.state.inclusionProofReceived request.inclusionProof request.metadata)
      let record := record.withState included
      let verified ← context.verifyByBlock scheme currentBlockNum request record
      return [if included.isSome || verified.isSome then some (record.withState verified) else none]

def importNoteRecordsByProof (requests : List (ProofRequest μ π)) :
    Except ClientError (List (Option (InputNoteRecord μ π))) := do
  let nullifiers := requests.map fun request => match request.previousNote with
    | some previousNote => previousNote.nullifier
    | none => request.details.nullifier
  let lowestBlockHeight := requests.foldl (fun lowest request =>
    min lowest (scheme.blockNum request.inclusionProof)) maxBlockNumber
  let heights ← context.getNullifierCommitHeights nullifiers lowestBlockHeight
  let records ← requests.mapM (context.importNoteRecordByProof scheme heights)
  return records.flatten

/-- The body of the second loop of `import_note_records_by_details`. -/
def importNoteRecordByDetails (committedNotesData : OrderedMap NoteId (μ × π))
    (request : DetailsRequest μ π) : Except ClientError (Option (InputNoteRecord μ π)) :=
  let record := context.startByDetails request
  match committedNotesData[record.id]? with
  | some (metadata, inclusionProof) => do
      let header ← context.getAndStoreAuthenticatedBlock (scheme.blockNum inclusionProof)
      let included ← liftRecord (record.state.inclusionProofReceived inclusionProof metadata)
      let record := record.withState included
      let verified ← liftRecord (record.state.blockHeaderReceived scheme record.id header)
      if verified.isSome || included.isSome then do
        context.removeNoteTag (context.tag metadata) record.id
        return some (record.withState verified)
      else return none
  | none => return some record

def importNoteRecordsByDetails (requests : List (DetailsRequest μ π)) :
    Except ClientError (List (Option (InputNoteRecord μ π))) := do
  let noteRequests := requests.filterMap fun request =>
    request.tag.map fun tag => (request.details.id, tag)
  let lowestRequestBlock := requests.foldl (fun lowest request =>
    if request.tag.isSome then min lowest request.afterBlockNum else lowest) maxBlockNumber
  let committedNotesData ← context.checkExpectedNotes lowestRequestBlock noteRequests
  requests.mapM (context.importNoteRecordByDetails scheme committedNotesData)

/-- The body of the loop of `import_note_records_by_id`, with the records and the notes that are
left to request. -/
def importNoteRecordById (notes : OrderedMap NoteId (Option (InputNoteRecord μ π)))
    (state : OrderedMap NoteId (Option (InputNoteRecord μ π)) × List (ProofRequest μ π))
    (fetchedNote : FetchedNote μ π) :
    Except ClientError
      (OrderedMap NoteId (Option (InputNoteRecord μ π)) × List (ProofRequest μ π)) :=
  let noteId := fetchedNote.id
  match notes[noteId]? with
  | none => .error (.noteImportError s!"Failed to retrieve note with id {noteId} from node")
  | some (some previousNote) => do
      let included ← liftRecord (previousNote.state.inclusionProofReceived
        fetchedNote.inclusionProof fetchedNote.metadata)
      if included.isSome then do
        let record := previousNote.withState included
        let tag ← context.tagOf record
        context.removeNoteTag tag noteId
        return (state.1.insert noteId (some record), state.2)
      else return (state.1.insert noteId none, state.2)
  | some none =>
      match fetchedNote with
      | .publicNote details metadata proof =>
          .ok (state.1, state.2 ++ [⟨none, details, metadata, proof⟩])
      | .privateNote _ _ _ => .error (.noteImportError "Incomplete imported note is private")

def importNoteRecordsById (notes : OrderedMap NoteId (Option (InputNoteRecord μ π))) :
    Except ClientError (OrderedMap NoteId (Option (InputNoteRecord μ π))) := do
  let fetchedNotes ← context.getNotesById (notes.toList.map Prod.fst)
  if fetchedNotes.isEmpty then
    .error (.noteImportError "No notes fetched from node")
  else do
    let (noteRecords, notesToRequest) ←
      fetchedNotes.foldlM (context.importNoteRecordById notes) (∅, [])
    if notesToRequest.isEmpty then
      return noteRecords
    else do
      let records ← context.importNoteRecordsByProof scheme notesToRequest
      return records.reduceOption.foldl (fun collected note =>
        collected.insert note.id (some note)) noteRecords

end Records

end ImportContext

/-! ### Imported notes -/

/-- `upsert_input_notes`, which writes whole rows. -/
def NoteRows.upsertInputNotes (rows : NoteRows μ π) (notes : List (InputNoteRecord μ π)) :
    NoteRows μ π :=
  { rows with
    inputs := notes.foldl (fun inputs note => inputs.insert note.id (serializeInputNote note))
      rows.inputs }

structure ImportRequests (μ π : Type) where
  byId : OrderedMap NoteId (Option (InputNoteRecord μ π))
  byDetails : List (DetailsRequest μ π)
  byProof : List (ProofRequest μ π)

/-- The body of the loop over the files, of which there is one for each note. -/
def ImportRequests.add (rows : NoteRows μ π) (requests : ImportRequests μ π)
    (entry : NoteId × NoteFile μ π) : Except ClientError (ImportRequests μ π) :=
  let noteId := entry.1
  let previousNote := rows.inputs[noteId]?.map parseInputNote
  if previousNote.any InputNoteRecord.isProcessing then
    .error (.noteImportError
      s!"Can't overwrite note with id {noteId} as it's currently being processed")
  else
    match entry.2 with
    | .noteId own => .ok { requests with byId := requests.byId.insert own previousNote }
    | .noteDetails details afterBlockNum tag =>
        .ok { requests with
          byDetails := requests.byDetails ++ [⟨previousNote, details, afterBlockNum, tag⟩] }
    | .noteWithProof details metadata inclusionProof =>
        .ok { requests with
          byProof := requests.byProof ++ [⟨previousNote, details, metadata, inclusionProof⟩] }

namespace ImportContext

variable (context : ImportContext μ π) (scheme : NoteScheme μ π)

/-- The last loop of `import_notes`. A failure leaves the notes before it written. -/
def storeImported : List (InputNoteRecord μ π) → NoteRows μ π →
    Except ClientError (List NoteId) × NoteRows μ π
  | [], rows => (.ok [], rows)
  | note :: others, rows =>
      let tagged := match note.state with
        | .expected _ _ (some tag) => context.insertNoteTag tag note.id
        | _ => .ok ()
      match tagged.bind fun _ => context.upsertInputNote note.id with
      | .error failure => (.error failure, rows)
      | .ok () =>
          let (noteIds, after) := storeImported others (rows.upsertInputNotes [note])
          (noteIds.map (note.id :: ·), after)

variable [DecidableEq μ] [DecidableEq π]

omit [DecidableEq μ] [DecidableEq π] in
/-- Nothing is asked for a kind of request that there is none of. -/
def unlessEmpty (isEmpty : Bool)
    (imported : Except ClientError (List (Option (InputNoteRecord μ π)))) :
    Except ClientError (List (Option (InputNoteRecord μ π))) :=
  if isEmpty then .ok [] else imported

/-- `import_notes` up to its writes. Of two files for one note the later one counts. -/
def importedNotes (noteFiles : List (NoteFile μ π)) (rows : NoteRows μ π) :
    Except ClientError (List (InputNoteRecord μ π)) := do
  let files := OrderedMap.collect (noteFiles.map fun file => (file.id, file))
  let requests ← files.toList.foldlM (ImportRequests.add rows) ⟨∅, [], []⟩
  let notesById ← unlessEmpty requests.byId.isEmpty
    (OrderedMap.values <$> context.importNoteRecordsById scheme requests.byId)
  let notesByDetails ← unlessEmpty requests.byDetails.isEmpty
    (context.importNoteRecordsByDetails scheme requests.byDetails)
  let notesByProof ← unlessEmpty requests.byProof.isEmpty
    (context.importNoteRecordsByProof scheme requests.byProof)
  return (notesById ++ notesByDetails ++ notesByProof).reduceOption

def importNotes (noteFiles : List (NoteFile μ π)) (rows : NoteRows μ π) :
    Except ClientError (List NoteId) × NoteRows μ π :=
  match context.importedNotes scheme noteFiles rows with
  | .error failure => (.error failure, rows)
  | .ok notes => context.storeImported notes rows

end ImportContext

/-! ### Notes of the transport layer -/

structure NoteInfo (μ : Type) where
  metadata : μ
  detailsBytes : List UInt8

/-- What the transport layer hands over, and how the details are read. -/
structure NoteTransport (μ : Type) where
  fetchNotes : Except ClientError (List (NoteInfo μ))
  readDetails : List UInt8 → Except ClientError NoteDetails
  updateCursor : Except ClientError Unit

def NoteTransport.rejoinNote (transport : NoteTransport μ) (info : NoteInfo μ) :
    Except ClientError (NoteDetails × μ) := do
  let details ← transport.readDetails info.detailsBytes
  return (details, info.metadata)

def noteLookbackBlocks : Nat := 20

/-- The files that `fetch_transport_notes` imports. -/
def ImportContext.transportedFiles (context : ImportContext μ π) (transport : NoteTransport μ) :
    Except ClientError (List (NoteFile μ π)) := do
  let noteInfos ← transport.fetchNotes
  let notes ← noteInfos.mapM transport.rejoinNote
  let syncHeight ← context.getSyncHeight
  return notes.map fun note =>
    .noteDetails note.1 (syncHeight - noteLookbackBlocks) (some (context.tag note.2))

def ImportContext.fetchTransportNotes [DecidableEq μ] [DecidableEq π]
    (context : ImportContext μ π) (scheme : NoteScheme μ π) (transport : NoteTransport μ)
    (rows : NoteRows μ π) : Except ClientError Unit × NoteRows μ π :=
  match context.transportedFiles transport with
  | .error failure => (.error failure, rows)
  | .ok noteFiles =>
      let (imported, after) := context.importNotes scheme noteFiles rows
      (imported.bind fun _ => transport.updateCursor, after)

/-! ### Requested notes -/

/-- What `execute_transaction` reads before it executes anything. -/
structure TransactionRequest (μ : Type) where
  validated : Except ClientError Unit
  inputNotes : List (NoteDetails × μ)
  tag : μ → NoteTag

namespace TransactionRequest

variable (request : TransactionRequest μ)

/-- `NoteFilter::List` with the input notes of the request. -/
def storedNoteRecords (rows : NoteRows μ π) : List (InputNoteRecord μ π) :=
  (rows.inputs.values.filter fun row =>
    request.inputNotes.any fun note => note.1.id = row.details.id).map parseInputNote

/-- The conversion of a note into a record. -/
def noteRecord (note : NoteDetails × μ) : InputNoteRecord μ π :=
  ⟨note.1, none, .expected (some note.2) 0 (some (request.tag note.2))⟩

/-- The notes of the request that the store does not have as authenticated ones. -/
def unauthenticatedInputNotes (stored : List (InputNoteRecord μ π)) :
    List (InputNoteRecord μ π) :=
  let authenticatedNoteIds :=
    (stored.filter InputNoteRecord.isAuthenticated).map InputNoteRecord.id
  (request.inputNotes.filter fun note => !authenticatedNoteIds.contains note.1.id).map
    request.noteRecord

/-- `execute_transaction` as far as it writes notes, with the stored notes that it goes on
with. What fails later does not take the rows back. -/
def executeTransaction (rows : NoteRows μ π) :
    Except ClientError (List (InputNoteRecord μ π)) × NoteRows μ π :=
  match request.validated with
  | .error failure => (.error failure, rows)
  | .ok () =>
      let stored : List (InputNoteRecord μ π) := request.storedNoteRecords rows
      match stored.find? InputNoteRecord.isConsumed with
      | some note => (.error (.inputNoteAlreadyConsumed note.id), rows)
      | none =>
          (.ok (stored.filter InputNoteRecord.isAuthenticated),
            rows.upsertInputNotes (request.unauthenticatedInputNotes stored))

end TransactionRequest

end MidenWorkspace.Client
