import H5GG.Library.Recent
import H5GG.Value.Type

/-!
# Preferences

`PreferencesStore.m`, over the property lists that the user defaults hold. A string is the list of
its UTF-16 units.
-/

namespace H5GG

abbrev Utf16 := List UInt16

def utf16 (text : String) : Utf16 := text.toList.map fun c => UInt16.ofNat c.toNat

inductive PlistNumber
  | boolean (value : Bool)
  | integer (value : Int)
  | real (bits : Nat)
  deriving DecidableEq, Repr

inductive Plist
  | string (text : Utf16)
  | number (value : PlistNumber)
  | array (items : List Plist)
  | dictionary (entries : List (Utf16 × Plist))
  | data (bytes : Bytes)

namespace Plist

def string? : Plist → Option Utf16
  | string text => some text
  | _ => none

def number? : Plist → Option PlistNumber
  | number value => some value
  | _ => none

/-- `value[key]`, of a dictionary. -/
def find? (key : Utf16) : Plist → Option Plist
  | dictionary entries => entries.lookup key
  | _ => none

end Plist

structure NSUserDefaults where
  objects : Utf16 → Option Plist

namespace NSUserDefaults
variable (defaults : NSUserDefaults)

def arrayForKey (key : Utf16) : List Plist :=
  match defaults.objects key with
  | some (.array items) => items
  | _ => []

def setObject (key : Utf16) (value : Option Plist) : NSUserDefaults :=
  ⟨fun other => if other = key then value else defaults.objects other⟩

end NSUserDefaults

structure Bookmark where
  address : Utf16
  name : Utf16
  type : Utf16
  deriving DecidableEq, Repr

def Bookmark.plist (bookmark : Bookmark) : Plist :=
  .dictionary [(utf16 "address", .string bookmark.address), (utf16 "name", .string bookmark.name),
    (utf16 "type", .string bookmark.type)]

def Bookmark.ofPlist? (value : Plist) : Option Bookmark := do
  let address ← (value.find? (utf16 "address")).bind Plist.string?
  let name ← (value.find? (utf16 "name")).bind Plist.string?
  let type ← (value.find? (utf16 "type")).bind Plist.string?
  return ⟨address, name, type⟩

structure SearchRecord where
  value : Utf16
  type : Utf16
  count : PlistNumber
  time : Utf16
  deriving DecidableEq, Repr

def SearchRecord.plist (entry : SearchRecord) : Plist :=
  .dictionary [(utf16 "value", .string entry.value), (utf16 "type", .string entry.type),
    (utf16 "count", .number entry.count), (utf16 "time", .string entry.time)]

def SearchRecord.ofPlist? (value : Plist) : Option SearchRecord := do
  let searchValue ← (value.find? (utf16 "value")).bind Plist.string?
  let type ← (value.find? (utf16 "type")).bind Plist.string?
  let count ← (value.find? (utf16 "count")).bind Plist.number?
  let time ← (value.find? (utf16 "time")).bind Plist.string?
  return ⟨searchValue, type, count, time⟩

def inputHistoryKey : Utf16 := utf16 "H5GGInputHistory"
def bookmarksKey : Utf16 := utf16 "H5GGBookmarks"
def searchHistoryKey : Utf16 := utf16 "H5GGSearchHistory"
def maximumInputHistory : Nat := 20
def maximumSearchHistory : Nat := 50

namespace NSUserDefaults
variable (defaults : NSUserDefaults)

def inputHistory : List Utf16 := (defaults.arrayForKey inputHistoryKey).filterMap Plist.string?

def addInputHistoryValue (value : Option Utf16) : NSUserDefaults :=
  match value with
  | none | some [] => defaults
  | some value =>
      let history := defaults.inputHistory
      if history.head? = some value then defaults
      else
        let history := value :: history
        let history := if maximumInputHistory < history.length then
          history.take maximumInputHistory else history
        defaults.setObject inputHistoryKey (some (.array (history.map .string)))

def clearInputHistory : NSUserDefaults := defaults.setObject inputHistoryKey none

def bookmarks : List Bookmark := (defaults.arrayForKey bookmarksKey).filterMap Bookmark.ofPlist?

def addBookmark (address name type : Option Utf16) : Bool × NSUserDefaults :=
  match address, name, type with
  | some address, some name, some type =>
      let stored := defaults.bookmarks
      if stored.any (·.address == address) then (false, defaults)
      else
        let stored := stored ++ [{ address, name, type : Bookmark }]
        (true, defaults.setObject bookmarksKey (some (.array (stored.map Bookmark.plist))))
  | _, _, _ => (false, defaults)

def removeBookmark (address : Option Utf16) : Bool × NSUserDefaults :=
  match address with
  | none => (false, defaults)
  | some address =>
      let stored := defaults.bookmarks
      match stored.findIdx? (·.address == address) with
      | none => (false, defaults)
      | some index => (true, defaults.setObject bookmarksKey
          (some (.array ((stored.eraseIdx index).map Bookmark.plist))))

def clearBookmarks : NSUserDefaults := defaults.setObject bookmarksKey none

def searchHistory : List SearchRecord :=
  (defaults.arrayForKey searchHistoryKey).filterMap SearchRecord.ofPlist?

/-- `time` is what `timestampProvider` answers. -/
def addSearchHistoryValue (value type : Option Utf16) (count : Int) (time : Utf16) :
    NSUserDefaults :=
  match value with
  | none => defaults
  | some value =>
      let entry : SearchRecord := ⟨value, type.getD [], .integer count, time⟩
      let history := entry :: defaults.searchHistory
      let history := if maximumSearchHistory < history.length then
        history.take maximumSearchHistory else history
      defaults.setObject searchHistoryKey (some (.array (history.map SearchRecord.plist)))

def clearSearchHistory : NSUserDefaults := defaults.setObject searchHistoryKey none

end NSUserDefaults

inductive PreferencesCall
  | addInputHistory (value : Option Utf16)
  | clearInputHistory
  | addBookmark (address name type : Option Utf16)
  | removeBookmark (address : Option Utf16)
  | clearBookmarks
  | addSearchHistory (value type : Option Utf16) (count : Int) (time : Utf16)
  | clearSearchHistory
  deriving DecidableEq, Repr

/-- The reply, of the calls that have one, and the defaults behind the call. -/
def NSUserDefaults.perform (defaults : NSUserDefaults) :
    PreferencesCall → Option Bool × NSUserDefaults
  | .addInputHistory value => (none, defaults.addInputHistoryValue value)
  | .clearInputHistory => (none, defaults.clearInputHistory)
  | .addBookmark address name type =>
      let (added, defaults) := defaults.addBookmark address name type
      (some added, defaults)
  | .removeBookmark address =>
      let (removed, defaults) := defaults.removeBookmark address
      (some removed, defaults)
  | .clearBookmarks => (none, defaults.clearBookmarks)
  | .addSearchHistory value type count time =>
      (none, defaults.addSearchHistoryValue value type count time)
  | .clearSearchHistory => (none, defaults.clearSearchHistory)

/-! ## What the store is for -/

/-- Recent inputs and searches, newest first, and bookmarks with one address each. -/
structure Preferences where
  inputs : List Utf16 := []
  bookmarks : List Bookmark := []
  searches : List SearchRecord := []
  deriving DecidableEq, Repr

namespace Preferences

def reply (preferences : Preferences) : PreferencesCall → Option Bool
  | .addBookmark (some address) (some _) (some _) =>
      some (!preferences.bookmarks.any (·.address == address))
  | .addBookmark .. => some false
  | .removeBookmark (some address) => some (preferences.bookmarks.any (·.address == address))
  | .removeBookmark none => some false
  | _ => none

def after (preferences : Preferences) : PreferencesCall → Preferences
  | .addInputHistory (some (unit :: text)) =>
      { preferences with
        inputs := Recent.pushNew maximumInputHistory preferences.inputs (unit :: text) }
  | .addInputHistory _ => preferences
  | .clearInputHistory => { preferences with inputs := [] }
  | .addBookmark (some address) (some name) (some type) =>
      if preferences.bookmarks.any (·.address == address) then preferences
      else { preferences with bookmarks := preferences.bookmarks ++ [⟨address, name, type⟩] }
  | .addBookmark .. => preferences
  | .removeBookmark (some address) =>
      { preferences with bookmarks := preferences.bookmarks.eraseP (·.address == address) }
  | .removeBookmark none => preferences
  | .clearBookmarks => { preferences with bookmarks := [] }
  | .addSearchHistory (some value) type count time =>
      { preferences with
        searches := Recent.push maximumSearchHistory preferences.searches
          ⟨value, type.getD [], .integer count, time⟩ }
  | .addSearchHistory .. => preferences
  | .clearSearchHistory => { preferences with searches := [] }

end Preferences

end H5GG
