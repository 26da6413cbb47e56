import SymbolServer.Memdb.SyncState
import SymbolServer.Memdb.Stash
import SymbolServer.Memdb.Sync
import SymbolServer.Memdb.Status
import SymbolServer.Memdb.Downloads
import SymbolServer.Memdb.Reconcile
import SymbolServer.Memdb.Health
import SymbolServer.Memdb.Revision
import SymbolServer.Memdb.Crash
import SymbolServer.Memdb.GetMemdb
import SymbolServer.Memdb.Interleaving
import SymbolServer.Memdb.Fuzzy
import SymbolServer.Memdb.Recovery
import SymbolServer.Memdb.Readers
import SymbolServer.Memdb.Listing
import SymbolServer.Memdb.Resume
import SymbolServer.Memdb.Untouched
import SymbolServer.Memdb.Snapshot
