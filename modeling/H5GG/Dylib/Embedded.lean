import H5GG.NSString

/-!
# The menu that a library carries

`makeDYLIB.mm`. The bytes are those of the placeholder in the library, as it was built or as the
builder has replaced them; `decode` is `initWithBytes:length:encoding:` with `NSUTF8StringEncoding`.
-/

namespace H5GG

/-- `H5MENU_STUB_FILE`. -/
def menuStub : Bytes :=
  [0x48, 0x35, 0x4D, 0x45, 0x4E, 0x55, 0x5F, 0x53, 0x54, 0x55, 0x42, 0x5F, 0x46, 0x49, 0x4C, 0x45]

def h5ggDataHasPrefix (data start : Bytes) : Bool := start.isPrefixOf data

/-- `strnlen` with the length of the data. -/
def strnlen (data : Bytes) : Nat := (data.takeWhile (· ≠ 0)).length

def h5ggEmbeddedCustomMenu (decode : Bytes → Option NSString) (data : Bytes) : Option NSString :=
  if h5ggDataHasPrefix data menuStub then none else decode (data.take (strnlen data))

end H5GG
