/-
What the well-known types are mapped to.

* `primitiveTypes`: numbers, handles and other values;
* `objectTypes`: classes that have a counterpart of another name;
* `valueTypes`: the targets a pointer to which is not safe;
* `arrayCollections`, `keyedCollections`, `setCollections`: collections;
* `enumBackingTypes`: the types that an enumeration is stored in.
-/

namespace HeaderBinding

/-- The targets of values that need no declaration. -/
def primitiveTypes : List (String × String) :=
  [("void", "void"), ("IBAction", "void"), ("BOOL", "bool"),
    ("bool", "bool"), ("_Bool", "bool"), ("GLboolean", "bool"),
    ("char", "sbyte"), ("signed char", "sbyte"),
    ("unsigned char", "byte"), ("uint8_t", "byte"), ("int8_t", "sbyte"),
    ("short", "short"), ("unsigned short", "ushort"),
    ("int16_t", "short"), ("uint16_t", "ushort"), ("int", "int"),
    ("signed", "int"), ("unsigned", "uint"), ("unsigned int", "uint"),
    ("int32_t", "int"), ("uint32_t", "uint"), ("SInt8", "sbyte"),
    ("SInt16", "short"), ("SInt32", "int"), ("SInt64", "long"),
    ("UInt8", "byte"), ("UInt16", "ushort"), ("UInt32", "uint"),
    ("UInt64", "ulong"), ("long", "nint"), ("unsigned long", "nuint"),
    ("long long", "long"), ("unsigned long long", "ulong"),
    ("int64_t", "long"), ("uint64_t", "ulong"), ("float", "float"),
    ("double", "double"), ("long double", "decimal"),
    ("size_t", "nuint"), ("ssize_t", "nint"), ("NSInteger", "nint"),
    ("NSUInteger", "nuint"), ("CGFloat", "nfloat"),
    ("NSTimeInterval", "double"), ("CFTimeInterval", "double"),
    ("unichar", "char"), ("intptr_t", "IntPtr"),
    ("uintptr_t", "UIntPtr"), ("id", "NSObject"), ("Class", "Class"),
    ("SEL", "Selector"), ("IMP", "IntPtr"),
    ("dispatch_queue_t", "DispatchQueue"),
    ("dispatch_data_t", "DispatchData"), ("CGColorRef", "CGColor"),
    ("CGPathRef", "CGPath"), ("CGImageRef", "CGImage"),
    ("CGContextRef", "CGContext"), ("CGColorSpaceRef", "CGColorSpace"),
    ("CGGradientRef", "CGGradient"), ("CGLayerRef", "CGLayer"),
    ("CGPDFDocumentRef", "CGPDFDocument"),
    ("CGPDFPageRef", "CGPDFPage"), ("CGImageSourceRef", "CGImageSource"),
    ("CFRunLoopRef", "CFRunLoop"), ("SecIdentityRef", "SecIdentity"),
    ("SecTrustRef", "SecTrust"),
    ("SecAccessControlRef", "SecAccessControl"),
    ("CMTimebaseRef", "CMTimebase"), ("CMClockRef", "CMClock"),
    ("CMSampleBufferRef", "CMSampleBuffer"),
    ("CVImageBufferRef", "CVImageBuffer"),
    ("CVPixelBufferRef", "CVPixelBuffer"),
    ("CMFormatDescriptionRef", "CMFormatDescription"),
    ("CMAudioFormatDescriptionRef", "CMAudioFormatDescription"),
    ("CMVideoFormatDescriptionRef", "CMVideoFormatDescription"),
    ("MIDIEndpointRef", "int"), ("sec_identity_t", "SecIdentity2"),
    ("sec_trust_t", "SecTrust2"),
    ("sec_protocol_options_t", "SecProtocolOptions"),
    ("sec_protocol_metadata_t", "SecProtocolMetadata")]

/-- The targets of classes and of names for strings. -/
def objectTypes : List (String × String) :=
  [("NSString", "string"), ("NSNumber", "NSNumber"),
    ("NSArray", "NSObject[]"), ("NSMutableArray", "NSMutableArray"),
    ("NSDictionary", "NSDictionary"), ("NSData", "NSData"),
    ("NSDate", "NSDate"), ("NSURL", "NSUrl"), ("NSUUID", "NSUuid"),
    ("NSError", "NSError"), ("NSObject", "NSObject"),
    ("NSSet", "NSSet"), ("NSValue", "NSValue"),
    ("NSNotificationName", "NSString"), ("NSErrorDomain", "NSString"),
    ("NSExceptionName", "NSString"), ("NSRunLoopMode", "NSString")]

/-- The targets that are numbers, characters or truth values. -/
def valueTypes : List String :=
  ["int", "uint", "short", "ushort", "long", "ulong", "byte", "sbyte",
    "float", "double", "decimal", "nint", "nuint", "nfloat", "bool",
    "char"]

/-- The collections that are mapped to arrays. -/
def arrayCollections : List String :=
  ["NSArray", "NSMutableArray"]

/-- The collections with a key and a value type. -/
def keyedCollections : List String :=
  ["NSDictionary", "NSMutableDictionary", "NSMapTable"]

/-- The collections with one element type that keep their name. -/
def setCollections : List String :=
  ["NSSet", "NSMutableSet", "NSOrderedSet", "NSMutableOrderedSet",
    "NSHashTable"]

/-- All collections. -/
def collectionTypes : List String :=
  arrayCollections ++ keyedCollections ++ setCollections

/-- The types that an enumeration may be stored in. -/
def enumBackingTypes : List (String × String) :=
  [("NSInteger", "long"), ("NSUInteger", "ulong"), ("int", "int"),
    ("unsigned int", "uint"), ("unsigned", "uint"), ("short", "short"),
    ("unsigned short", "ushort"), ("long", "nint"),
    ("unsigned long", "nuint"), ("long long", "long"),
    ("unsigned long long", "ulong"), ("int64_t", "long"),
    ("uint64_t", "ulong"), ("uint8_t", "byte"), ("UInt8", "byte"),
    ("int8_t", "sbyte"), ("SInt8", "sbyte"), ("uint16_t", "ushort"),
    ("UInt16", "ushort"), ("int16_t", "short"), ("SInt16", "short"),
    ("uint32_t", "uint"), ("UInt32", "uint"), ("int32_t", "int"),
    ("SInt32", "int")]

/-- The types whose width is that of a machine word. -/
def nativeBackingTypes : List String :=
  ["NSInteger", "NSUInteger"]

end HeaderBinding
