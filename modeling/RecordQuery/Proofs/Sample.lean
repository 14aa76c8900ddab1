import RecordQuery.Proofs.Store

/-!
# A sample database

Accounts, contacts and tasks, small enough to be evaluated.  It has what joins must get right:
keys that are equal with different digits and of different kinds, a reference that meets an
identifier, a record without a key, and a link below a link that drops a match.
-/

namespace RecordQuery

/-- A table that holds records. -/
def Table.ofRecords (rs : List Record) : Table :=
  ⟨rs.toArray, .ofList (rs.zipIdx.map fun p => (p.1.id, p.2))⟩

namespace Sample

/-! ## Entity types -/

def account : Entity := (Entity.new "account" "accountid").declare "code" .decimal

def contact : Entity :=
  ((Entity.new "contact" "contactid").declare "fullname" .string).declare "code" .decimal

def task : Entity := (Entity.new "task" "taskid").declare "regarding" .lookup

/-! ## Records -/

def contoso : Record := (Record.new "account" ⟨1⟩).set "code" (.decimal ⟨15, 1⟩)

/-- The code is that of `contoso`, written with one more digit. -/
def ada : Record :=
  ((Record.new "contact" ⟨2⟩).set "fullname" (.text "Ada")).set "code" (.decimal ⟨150, 2⟩)

/-- The code is that of `contoso` as an amount of money. -/
def grace : Record :=
  ((Record.new "contact" ⟨3⟩).set "fullname" (.text "Grace")).set "code" (.money ⟨15, 1⟩)

def linus : Record := (Record.new "contact" ⟨4⟩).set "fullname" (.text "Linus")

def call : Record :=
  (Record.new "task" ⟨5⟩).set "regarding" (.reference (Reference.new "contact" ⟨2⟩))

/-- The database of these records. -/
def db : Database where
  store := ⟨[("account", .ofRecords [contoso]), ("contact", .ofRecords [ada, grace, linus]),
    ("task", .ofRecords [call])]⟩
  schema := Schema.ofEntities 1 default [account, contact, task]

/-- Its records stand in order. -/
def ordered : OrderedDatabase := ⟨db, Store.forall_records (by decide +kernel)⟩

/-- The default settings at some moment. -/
def ctx : Context := .standard default

/-! ## Links -/

/-- From accounts to the contacts of their code that have a task; accounts without such a contact
are kept. -/
def links : List Link :=
  [.node ⟨"account", "code", "contact", "code", .leftOuter, some "c", .listed ["fullname"], .empty⟩
    [.node ⟨"contact", "contactid", "task", "regarding", .inner, none, .all, .empty⟩ []]]

end Sample

end RecordQuery
