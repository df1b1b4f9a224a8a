import TenantStore.Block.Partition

/-!
# Listing blocks

A listing walks over the identifiers of the blocks of one partition while others may write.  It
fetches keys page by page and remembers only where the next page starts.  The context is looked at
before every page and before every identifier; after the first error the listing is over.
-/

namespace TenantStore

/-- A walk over the blocks of a partition. -/
structure BlockListing where
  partition : BlockPartition
  pageSize : Nat
  nextStart : Bytes
  /-- The identifiers that were fetched and not yet given out. -/
  buffer : List ContentId
  exhausted : Bool

namespace BlockListing

/-- The number of keys that a listing fetches at once. -/
def defaultPageSize : Nat := 256

/-- A walk that has not begun. -/
def begin (partition : BlockPartition) (pageSize : Nat := defaultPageSize) : BlockListing where
  partition := partition
  pageSize := pageSize
  nextStart := partition.scope.range.start
  buffer := []
  exhausted := false

/-- The walk after an error: nothing follows. -/
def stopped (listing : BlockListing) : BlockListing :=
  { listing with buffer := [], exhausted := true }

/-- The walk after the next page was fetched from the contents. -/
def fetched (listing : BlockListing) (contents : Contents) : BlockListing :=
  let range : KeyRange := ⟨listing.nextStart, listing.partition.scope.range.stop⟩
  let page := contents.scan range .ascending (some listing.pageSize)
  { listing with
    exhausted := page.length < listing.pageSize
    nextStart := (page.getLast?.map fun entry => Key.next entry.1).getD listing.nextStart
    buffer := page.filterMap fun entry => listing.partition.blockOf? entry.1 }

/-- The next identifier or error, and the walk that remains, fetching at most `pages` pages. -/
def nextWithin (pages : Nat) (listing : BlockListing) (database : Database) (context : Context) :
    Option (Except StoreError ContentId) × BlockListing :=
  match listing.buffer with
  | identifier :: rest =>
    match context.check with
    | .error problem => (some (.error problem), listing.stopped)
    | .ok () => (some (.ok identifier), { listing with buffer := rest })
  | [] =>
    if listing.exhausted then (none, listing)
    else
      match pages with
      | 0 => (none, listing)
      | pages + 1 =>
        match database.ready context with
        | .error problem => (some (.error problem), listing.stopped)
        | .ok () => nextWithin pages (listing.fetched database.contents) database context

/-- The next identifier or error, and the walk that remains.  Every page but the last holds a key,
so there are not more pages than keys, and one. -/
def next (listing : BlockListing) (database : Database) (context : Context) :
    Option (Except StoreError ContentId) × BlockListing :=
  listing.nextWithin (database.contents.size + 1) database context

/-- The identifiers that a walk gives, at most `count` of them, or its first error. -/
def takeAll (count : Nat) (listing : BlockListing) (database : Database) (context : Context) :
    Except StoreError (List ContentId) :=
  match count with
  | 0 => .ok []
  | count + 1 =>
    match listing.next database context with
    | (none, _) => .ok []
    | (some (.error problem), _) => .error problem
    | (some (.ok identifier), rest) =>
      (takeAll count rest database context).map (identifier :: ·)

end BlockListing

namespace BlockPartition

/-- The identifiers of all blocks of this very partition, in the order of their keys. -/
def identifiers (partition : BlockPartition) (context : Context) :
    StoreM Database (List ContentId) :=
  StoreM.ofStep fun database =>
    ((BlockListing.begin partition).takeAll (database.contents.size + 1) database context, database)

end BlockPartition

end TenantStore
