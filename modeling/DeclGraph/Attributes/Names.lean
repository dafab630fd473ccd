/-!
# Names of attributes

The keys under which declarations describe entities, and edges say why they
are there.
-/

namespace DeclGraph.AttributeName

/-- A flag: declared virtual. -/
def isVirtual : String := "is_virtual"
/-- A flag: marked as replacing a base method, or as final. -/
def isOverride : String := "is_override"
/-- A flag: pure virtual. -/
def isPure : String := "is_pure"
/-- A flag: declared static. -/
def isStatic : String := "is_static"
/-- A flag: a member function that may be called on constants. -/
def isConst : String := "const_qualified"
/-- A flag: the body is the default one. -/
def isDefaulted : String := "is_defaulted"
/-- A flag: the function may not be used. -/
def isDeleted : String := "is_deleted"
/-- A flag: the parameter list ends in an ellipsis. -/
def isVariadic : String := "is_variadic"
/-- A flag: the entity has a body. -/
def isDefinition : String := "is_definition"
/-- A flag: the scope is known from qualifiers only. -/
def implied : String := "implied"
/-- A flag: the record was declared as a struct. -/
def isStruct : String := "is_struct"
/-- A list: the parameter types. -/
def parameterTypes : String := "parameter_types"
/-- A list: the parameter names, empty where there is none. -/
def parameterNames : String := "parameter_names"
/-- A text: the return type. -/
def returnType : String := "return_type"
/-- A number: how many arguments a call needs at least. -/
def minArity : String := "min_arity"
/-- A text: the type an alias stands for, as spelled. -/
def underlyingType : String := "underlying_type"
/-- A text: the type of a data member, as spelled. -/
def fieldType : String := "field_type"
/-- A text: who may use a member. -/
def access : String := "access"
/-- A list: the base records, as spelled. -/
def bases : String := "bases"
/-- A list: the names of a record's member functions. -/
def methods : String := "methods"
/-- A list: the names of the template parameters. -/
def templateParameters : String := "template_parameters"
/-- A text: the file of the declaration that describes the entity. -/
def sourceFile : String := "source_file"
/-- A number: the line of that declaration. -/
def line : String := "line"
/-- A list: every file with a declaration of the entity. -/
def declaredIn : String := "declared_in"
/-- A text: the file with the body. -/
def definedIn : String := "defined_in"

/-- A list on a use of a type: in which roles the type is used. -/
def roles : String := "roles"
/-- A list on a call: the lines of the call sites. -/
def callLines : String := "call_lines"
/-- A text on an inheritance: its access. -/
def inheritanceAccess : String := "inheritance_access"
/-- A list on a held type: the data members that hold it. -/
def viaFields : String := "via_fields"

/-- The attributes to which every declaration adds its share. -/
def shared : List String := [declaredIn, methods]

end DeclGraph.AttributeName
