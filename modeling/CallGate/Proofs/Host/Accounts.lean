import CallGate.Proofs.Account.Book
import CallGate.Proofs.Host.Effect

/-!
# What a host answers about accounts

A host asks its source alone about accounts, and no callback changes the source. So with a book as
its source a host answers from the insertions that made the book, in every state and after every
run.

* `Host.getElem?_run_account`: the answer to a question about an account in a run.
* `Host.run_accounts`: what a host with a book answers.
-/

namespace CallGate.Host

/-- No callbacks change what a host knows of the accounts. -/
theorem run_accounts_eq (host : Host) (callbacks : List Callback) :
    (host.run callbacks).2.accounts = host.accounts := by
  rw [run_host]

/-- A question about an account is answered by the source, whatever came before it. -/
theorem getElem?_run_account (host : Host) (before : List Callback) (address : Address)
    (offset : Nat) (buffer : Bytes) (after : List Callback) :
    (host.run (before ++ .account address offset buffer :: after)).1[before.length]? =
      some (.account (host.accounts.report address offset buffer)) := by
  rw [getElem?_run, step, run_accounts_eq]

/-- A book answers from the last insertion for each address, with the hash of the code that was
inserted, and has as many accounts as addresses were inserted. A host with this book gives the same
answers in every state, whatever other callbacks have run. -/
theorem run_accounts (inserts : List (Address × Word × Bytes)) :
    let book := AccountBook.ofInserts inserts
    let source := AccountBook.source book
    AccountBook.Reflects source inserts ∧
    book.size = (inserts.map Prod.fst).dedup.length ∧
    emptyCodeHash = Keccak.hash [] ∧
    ∀ host : Host, host.accounts = source → ∀ before address offset buffer after,
      (host.run (before ++ .account address offset buffer :: after)).1[before.length]? =
        some (.account {
          isPresent := source.isPresent address
          balance := source.balance address
          code := source.code address
          codeSize := source.codeSize address
          codeHash := source.codeHash address
          copied := (source.copyCode address offset buffer).1
          buffer := (source.copyCode address offset buffer).2 }) := by
  intro book source
  refine ⟨AccountBook.reflects_ofInserts inserts, AccountBook.size_ofInserts inserts,
    emptyCodeHash_eq, ?_⟩
  intro host hsource before address offset buffer after
  rw [getElem?_run_account, hsource]
  rfl

-- The second insertion takes the code away, and the hash with it; the third address is unknown.
example :
    let address (n : Nat) : Address := .ofNat n
    let source := AccountBook.source (.ofInserts
      [(address 1, .ofNat 5, [0x60, 0x00]), (address 2, .ofNat 7, [0xF3]),
        (address 1, .ofNat 6, [])])
    source.balance (address 1) = .ofNat 6 ∧ source.codeHash (address 1) = emptyCodeHash ∧
      source.isPresent (address 3) = false ∧ source.codeHash (address 3) = .zero := by
  decide +kernel

end CallGate.Host
