import LazyMapper.Model.Basic

/-!
# A catalogue of models

The models of a bookshop, which between them use every feature of a mapping: renamed columns,
composite keys, deferred attributes and groups, attributes that raise on access, relationships of
every kind and in circles, two models of one table, mappings that are refused, an attribute that
is not reported, and more attributes than a machine word has bits.
-/

set_option autoImplicit false

namespace LazyMapper.Catalogue

/-- The only primary key attribute of most models. -/
def idField : Field := (Field.named "id").withPrimaryKey true

/-- A relationship to a model of the catalogue. -/
def relation (name target table : String) (cardinality : Cardinality) : Relationship :=
  (Relationship.toTable name table cardinality).withTarget target

def bookEntity : Entity where
  table := "books"
  typeName := "Book"
  fields := [
    idField,
    .named "title",
    .named "isbn",
    (Field.named "summary").deferred,
    (Field.ofColumn "cover" "cover_image").deferredIn "media",
    (Field.named "thumbnail").deferredIn "media",
    (Field.named "author_id").withForeignKey "authors.id"]
  primaryKey := ["id"]
  relationships := [
    ((relation "author" "Author" "authors" .manyToOne).withLocalKey
      "author_id").withBackPopulates "books",
    (relation "reviews" "Review" "reviews" .oneToMany).withRemoteKey "book_id",
    (relation "detail" "Detail" "details" .oneToOne).withRemoteKey "book_id"]

def book : Model :=
  .ofEntity bookEntity
    [("title", .text), ("isbn", .text), ("summary", .text), ("author_id", .integer)] []

def authorEntity : Entity where
  table := "authors"
  typeName := "Author"
  fields := [
    idField,
    .named "name",
    (Field.named "bio").deferredIn "profile",
    (Field.named "photo").deferredIn "profile",
    (Field.named "notes").raising,
    (Field.named "publisher_id").deferred.withNullable true]
  primaryKey := ["id"]
  relationships := [
    ((relation "books" "Book" "books" .oneToMany).withRemoteKey
      "author_id").withBackPopulates "author",
    (relation "publisher" "Publisher" "publishers" .manyToOne).withLocalKey "publisher_id"]

def author : Model :=
  .ofEntity authorEntity
    [("name", .text), ("bio", .text), ("notes", .text), ("publisher_id", .text)] []

def publisherEntity : Entity where
  table := "publishers"
  typeName := "Publisher"
  fields := [
    .ofColumn "name" "pub_name",
    (Field.ofColumn "code" "pub_code").withPrimaryKey true,
    (Field.named "city").deferred]
  primaryKey := ["code"]
  relationships := [
    (relation "authors" "Author" "authors" .oneToMany).withRemoteKey "publisher_id"]

def publisher : Model :=
  .ofEntity publisherEntity [("name", .text), ("code", .text), ("city", .text)] []

/-- The primary key has two attributes, in another order than the fields. -/
def reviewEntity : Entity where
  table := "reviews"
  typeName := "Review"
  fields := [
    (Field.ofColumn "seq" "seq_no").withPrimaryKey true,
    (Field.ofColumn "body" "body_text").deferredIn "text",
    (Field.named "book_id").withPrimaryKey true,
    (Field.named "rating").withDefault "0",
    (Field.named "extra").deferredIn "text"]
  primaryKey := ["book_id", "seq"]
  relationships := [
    ((relation "book" "Book" "books" .manyToOne).withLocalKey "book_id").withRemoteKey "id",
    (Relationship.toTable "reviewer" "authors" .manyToOne).withLocalKey "rating"]

def review : Model := .ofEntity reviewEntity [] []

/-- A second model of the table `books`. -/
def bookLiteEntity : Entity where
  table := "books"
  typeName := "BookLite"
  fields := [
    .named "title",
    idField,
    (Field.named "isbn").deferredIn "codes",
    (Field.named "summary").raising]
  primaryKey := ["id"]
  relationships := [
    (relation "writer" "Author" "authors" .manyToOne).withLocalKey "isbn"]

def bookLite : Model := .ofEntity bookLiteEntity [] []

def detailEntity : Entity where
  table := "details"
  typeName := "Detail"
  fields := [
    idField,
    .named "book_id",
    (Field.named "spec").raising,
    (Field.named "size").deferred]
  primaryKey := ["id"]
  relationships := [
    (relation "book" "Book" "books" .oneToOne).withLocalKey "book_id",
    (relation "broken" "Broken" "brokens" .manyToOne).withLocalKey "book_id",
    (relation "odds" "Odd" "odds" .oneToMany).withRemoteKey "id",
    (relation "badremote" "Book" "books" .oneToMany).withRemoteKey "zzz"]

def detail : Model := .ofEntity detailEntity [] []

/-- The primary key is deferred, which is refused. -/
def brokenEntity : Entity where
  table := "brokens"
  typeName := "Broken"
  fields := [idField.deferred, .named "x"]
  primaryKey := ["id"]
  relationships := [(relation "book" "Book" "books" .manyToOne).withLocalKey "x"]

def broken : Model := .ofEntity brokenEntity [] []

/-- Three of the four relationships lack a key, which is refused. -/
def oddEntity : Entity where
  table := "odds"
  typeName := "Odd"
  fields := [idField]
  primaryKey := ["id"]
  relationships := [
    relation "nokey" "Book" "books" .manyToOne,
    (relation "badlocal" "Book" "books" .manyToOne).withLocalKey "zzz",
    relation "noremote" "Book" "books" .oneToMany,
    (relation "good" "Book" "books" .oneToMany).withRemoteKey "author_id"]

def odd : Model := .ofEntity oddEntity [] []

/-- Two columns have quotation marks in their names. -/
def nodeEntity : Entity where
  table := "nodes"
  typeName := "Node"
  fields := [
    idField,
    .ofColumn "label" "la\"bel",
    (Field.ofColumn "payload" "pay\x60load").deferredIn "blob",
    .named "parent_id"]
  primaryKey := ["id"]
  relationships := [
    ((relation "parent" "Node" "nodes" .manyToOne).withLocalKey
      "parent_id").withBackPopulates "children",
    ((relation "children" "Node" "nodes" .oneToMany).withRemoteKey
      "parent_id").withBackPopulates "parent"]

def node : Model := .ofEntity nodeEntity [] []

/-- The attribute `secret` is not reported. -/
def hiddenEntity : Entity where
  table := "hiddens"
  typeName := "Hidden"
  fields := [
    idField,
    (Field.named "secret").deferredIn "g",
    (Field.named "num").deferredIn "g",
    .named "count",
    (Field.named "alt").deferredIn "h",
    (Field.named "loud").deferredIn "h"]
  primaryKey := ["id"]
  relationships := []

def hidden : Model :=
  .ofEntity hiddenEntity [("num", .integer), ("count", .integer)] ["secret"]

/-- The attribute of a number in the widest model. -/
def wideField (number : Nat) : Field :=
  let digits := toString number
  let field := Field.named ("c" ++ (if number < 10 then "0" ++ digits else digits))
  if number = 65 then field.withPrimaryKey true
  else if number % 23 = 11 then field.raising
  else if number % 7 = 3 then field.deferred
  else if number % 7 = 5 then
    field.deferredIn (match number % 3 with | 0 => "g0" | 1 => "g1" | _ => "g2")
  else field

def wideEntity : Entity where
  table := "wides"
  typeName := "Wide"
  fields := (List.range 70).map wideField
  primaryKey := ["c65"]
  relationships := [(relation "next" "Wide" "wides" .manyToOne).withLocalKey "c69"]

def wide : Model := .ofEntity wideEntity [] []

/-- All models by the names of their entities. -/
def models : List (String × Model) :=
  [book, author, publisher, review, bookLite, detail, broken, odd, node, hidden, wide].map
    fun model => (model.entity.typeName, model)

/-- The entities of all models. -/
def schema : Schema := ⟨models.map fun item => (item.1, item.2.entity)⟩

end LazyMapper.Catalogue
