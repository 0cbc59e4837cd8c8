import MemoBoard.Http.Service
import MemoBoard.Settings
import MemoBoard.Proofs.Integrity
import MemoBoard.Proofs.Concealment
import MemoBoard.Proofs.Identity
import MemoBoard.Proofs.Refusals
import MemoBoard.Proofs.Exactness
import MemoBoard.Proofs.Forest
import MemoBoard.Proofs.Atomicity
import MemoBoard.Proofs.Departure
import MemoBoard.Proofs.Faults
import MemoBoard.Proofs.Parents
import MemoBoard.Proofs.Places
import MemoBoard.Proofs.Journal
import MemoBoard.Proofs.Markers
import MemoBoard.Proofs.Pins
import MemoBoard.Proofs.Cascades
import MemoBoard.Proofs.Timestamps
import MemoBoard.Proofs.Paging
import MemoBoard.Proofs.Creation
import MemoBoard.Proofs.Independence
import MemoBoard.Proofs.Callers
import MemoBoard.Proofs.Queries
import MemoBoard.Proofs.Records
import MemoBoard.Proofs.Environments
